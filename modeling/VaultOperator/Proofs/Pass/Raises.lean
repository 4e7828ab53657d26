import VaultOperator.Engine.Reconcile
import VaultOperator.Proofs.Pass.Execution

/-!
# What passes fail with

The errors that a program ends in are those that its steps end in (`Raises`): one rule for each way in
which programs are put together, so that what is said of all errors goes through a whole pass.
-/

namespace VaultOperator

variable {P : ε → Prop}

/-- Every error that the program ends in is such an error. -/
def Raises (P : ε → Prop) (p : ExceptT ε Program α) : Prop :=
  ∀ es e, Ends p es (.error e) → P e

theorem raises_pure : Raises P (pure a : ExceptT ε Program α) := by
  intro es e h
  obtain ⟨-, ⟨⟩⟩ := ends_pure.1 h

theorem raises_throw (h : P e) : Raises P (throw e : ExceptT ε Program α) := by
  intro es e' hends
  obtain ⟨-, ⟨⟩⟩ := ends_throw.1 hends
  exact h

theorem raises_lift {q : Program α} : Raises P (ExceptT.lift q : ExceptT ε Program α) := by
  intro es e h
  obtain ⟨_, -, ⟨⟩⟩ := ends_lift.1 h

theorem raises_done {r : Except ε α} (h : ∀ e, r = .error e → P e) :
    Raises P (ExceptT.mk (.done r) : ExceptT ε Program α) := by
  intro es e hends
  obtain ⟨-, hr⟩ := Program.exec_done.1 (ends_mk.1 hends)
  exact h e (Option.some.inj hr).symm

theorem Raises.bind {p : ExceptT ε Program α} {f : α → ExceptT ε Program β} (h : Raises P p)
    (hf : ∀ a, Raises P (f a)) : Raises P (p >>= f) := by
  intro es e hends
  rcases ends_bind.1 hends with ⟨a, _, es₂, -, hrest, -⟩ | ⟨_, hstep, ⟨⟩⟩
  · exact hf a es₂ e hrest
  · exact h es e hstep

theorem Raises.map {p : ExceptT ε Program α} {f : α → β} (h : Raises P p) : Raises P (f <$> p) := by
  rw [map_eq_pure_bind]
  exact h.bind fun _ => raises_pure

namespace Pass

variable {P : ReconcileError → Prop}

theorem raises_attempt {wrap : ε → ReconcileError} {q : Program (Except ε α)}
    (h : ∀ es e, Program.Exec q es (some (.error e)) → P (wrap e)) : Raises P (attempt wrap q) := by
  intro es e hends
  obtain ⟨answer, hexec, hanswer⟩ := ends_attempt.1 hends
  obtain ⟨cause, rfl, rfl⟩ := error_eq_mapError.1 hanswer
  exact h es cause hexec

theorem raises_orFail {value : Option α} (h : P e) : Raises P (orFail value e) := by
  cases value with
  | some a => exact raises_pure
  | none => exact raises_throw h

end Pass

end VaultOperator
