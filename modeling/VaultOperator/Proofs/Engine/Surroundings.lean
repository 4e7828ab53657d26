import VaultOperator.Proofs.Engine.Login
import VaultOperator.Proofs.Pass.Follows

/-!
# What passes find around them

What is answered where nothing fails (`Given`). Two passes that find the same secrets in the cluster
both log in (`login_follows`).
-/

namespace VaultOperator

/-- What Vault shows at each path. -/
abbrev VaultContent := String → Option Payload

/-- What there is outside of Vault. -/
structure StoreContent where
  secrets : String → String → Option SecretData
  randomSecrets : String → String → Option RandomSecret
  caFile : String → Except String String

/-- All that is looked up is answered with what is there, and no token is refused. -/
def Given (store : StoreContent) (vault : VaultContent) : Event → Prop
  | .call (.readCaFile path) answer => answer = store.caFile path
  | .call (.cluster (.getSecret ns name)) answer => answer = .ok (store.secrets ns name)
  | .call (.cluster (.getRandomSecret ns name)) answer => answer = .ok (store.randomSecrets ns name)
  | .call (.cluster (.serviceAccountToken ..)) answer => ∃ token, answer = .ok token
  | .call (.vault (.login ..)) answer => ∃ token, answer = .ok token
  | .call (.vault (.read _ path)) answer => answer = .ok (vault path)
  | _ => True

variable {store : StoreContent} {before after : VaultContent}

-- ---------------------------------------------------------------------------
-- Single calls
-- ---------------------------------------------------------------------------

theorem Pass.follows_ask {P Q : Event → Prop} {R : α → β → Prop} {p : Program (Except ε α)}
    {q : Program (Except δ β)} {event : Except ε α → Event} {event' : Except δ β → Event}
    (hp : ∀ es r, Program.Exec p es r ↔ ∃ answer, es = [event answer] ∧ r = some answer)
    (hq : ∀ es r, Program.Exec q es r ↔ ∃ answer, es = [event' answer] ∧ r = some answer)
    (h : ∀ a, P (event (.ok a)) → ∀ answer, Q (event' answer) → ∃ b, answer = .ok b ∧ R a b) :
    Follows P Q R (attempt wrap p) (attempt wrap' q) :=
  follows_attempt (follows_mk hp hq h)

theorem Pass.read_yields : Yields (Given store after) (Pass.read session path) (after path) := by
  intro es r h hQ
  rcases Program.exec_bind.1 h with ⟨answer, es₁, es₂, h₁, h₂, rfl⟩ | ⟨h₁, -⟩
  · obtain ⟨_, rfl, ⟨⟩⟩ := Program.exec_vault.1 h₁
    obtain rfl : answer = .ok (after path) := hQ _ List.mem_cons_self
    obtain ⟨-, rfl⟩ := Program.exec_done.1 h₂
    rfl
  · obtain ⟨_, _, ⟨⟩⟩ := Program.exec_vault.1 h₁

theorem Pass.read_ok (h : Ends (Pass.read session path) es (.ok found))
    (hP : ∀ e ∈ es, Given store before e) : found = before path := by
  obtain ⟨answer, rfl, hok⟩ := Pass.ends_read.1 h
  obtain rfl := ok_eq_mapError.1 hok
  have hgiven : .ok found = Except.ok (before path) := hP _ List.mem_cons_self
  exact Except.ok.inj hgiven

theorem Pass.read_follows (h : after path = before path) :
    Follows (Given store before) (Given store after) Eq (Pass.read session path)
      (Pass.read session' path) := by
  intro es found hp hP fs r hq hQ
  exact ⟨after path, read_yields fs r hq hQ, by rw [h, read_ok hp hP]⟩

theorem Pass.getSecret_follows :
    Follows (Given store before) (Given store after) Eq (Pass.getSecret ns name)
      (Pass.getSecret ns name) := by
  refine follows_ask (fun _ _ => Program.exec_cluster) (fun _ _ => Program.exec_cluster) ?_
  intro data hdata answer hanswer
  exact ⟨data, hanswer.trans hdata.symm, rfl⟩

-- ---------------------------------------------------------------------------
-- Logging in
-- ---------------------------------------------------------------------------

namespace Engine

theorem caPem_follows :
    Follows (Given store before) (Given store after) (fun _ _ => True) (caPem s ns connection)
      (caPem s ns connection) := by
  unfold caPem
  split
  · refine Follows.map (R := fun _ _ => True) ?_ fun _ _ _ => trivial
    refine Pass.getSecret_follows.bind fun found _ hfound => ?_
    subst hfound
    refine Pass.follows_orFail_self.bind fun data _ hdata => ?_
    subst hdata
    exact Pass.follows_orFail_self.bind fun _ _ _ => follows_pure trivial
  · refine Follows.map (R := fun _ _ => True) ?_ fun _ _ _ => trivial
    refine Pass.follows_ask (fun _ _ => Program.exec_ask) (fun _ _ => Program.exec_ask) ?_
    intro text htext answer hanswer
    exact ⟨text, hanswer.trans htext.symm, trivial⟩
  · exact follows_pure trivial

/-- The tokens can be others, but there is a session again. -/
theorem login_follows :
    Follows (Given store before) (Given store after) (fun _ _ => True) (login s ns access)
      (login s ns access) := by
  refine Follows.bind (R := fun _ _ => True) ?_ fun _ _ _ => ?_
  · exact caPem_follows.bind fun _ _ _ => follows_pure trivial
  · refine Follows.bind (R := fun _ _ => True) ?_ fun _ _ _ => ?_
    · refine Pass.follows_ask (fun _ _ => Program.exec_cluster) (fun _ _ => Program.exec_cluster) ?_
      rintro _ - _ ⟨token, rfl⟩
      exact ⟨token, rfl, trivial⟩
    · refine Follows.bind (R := fun _ _ => True) ?_ fun _ _ _ => follows_pure trivial
      refine Pass.follows_ask (fun _ _ => Program.exec_vault) (fun _ _ => Program.exec_vault) ?_
      rintro _ - _ ⟨token, rfl⟩
      exact ⟨token, rfl, trivial⟩

end Engine

end VaultOperator
