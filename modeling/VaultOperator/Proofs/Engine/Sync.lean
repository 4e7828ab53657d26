import VaultOperator.Engine.Reconcile
import VaultOperator.Proofs.Pass.Execution

/-!
# Bringing a path of Vault to a payload

There is one read, and at most one write after it, which is made only where nothing or something
else was found (`syncPath_ends`).
-/

namespace VaultOperator.Engine

/-- What is found where a path was read is not what is desired. -/
def Differs (comparison : Comparison) (desired : Payload) (observed : Option Payload) : Prop :=
  ∀ found ∈ observed, ¬ comparison.isEquivalent desired found []

theorem syncPath_ends (h : Ends (syncPath session path desired comparison) es r) :
    ∃ answer rest, es = .call (.vault (.read session path)) answer :: rest ∧
      (rest = [] ∨ ∃ observed written, answer = .ok observed ∧
        Differs comparison desired observed ∧
        rest = [.call (.vault (.write session path desired)) written]) := by
  rcases ends_bind.1 h with ⟨observed, _, rest, hread, hrest, rfl⟩ | ⟨_, hread, rfl⟩ <;>
    obtain ⟨answer, rfl, hanswer⟩ := Pass.ends_read.1 hread
  · obtain rfl := ok_eq_mapError.1 hanswer
    refine ⟨_, rest, rfl, ?_⟩
    split at hrest
    · obtain ⟨written, rfl⟩ := Pass.write_return hrest
      exact .inr ⟨_, written, rfl, nofun, rfl⟩
    · next found =>
      split at hrest
      · exact .inl (ends_pure.1 hrest).1
      · next hdiffers =>
        obtain ⟨written, rfl⟩ := Pass.write_return hrest
        refine .inr ⟨_, written, rfl, ?_, rfl⟩
        rintro _ ⟨⟩
        exact hdiffers
  · exact ⟨_, [], rfl, .inl rfl⟩

theorem concludes_syncPath {P : Call → Prop} (hread : P (.vault (.read session path)))
    (hwrite : P (.vault (.write session path desired))) :
    Concludes P (syncPath session path desired comparison) := by
  refine .bind (Pass.concludes_read hread) fun observed => ?_
  split
  · exact .bind (Pass.concludes_write hwrite) fun _ => concludes_pure
  · split
    · exact concludes_pure
    · exact .bind (Pass.concludes_write hwrite) fun _ => concludes_pure

end VaultOperator.Engine
