import VaultOperator.Proofs.Engine.Echo

/-!
# A world with a Vault that echoes

Whatever runs before a world that keeps what is written happens to a Vault that echoes
(`happens_run`).
-/

namespace VaultOperator

/-- What was written to a path, and more where there is more to show. -/
def put (more : Payload) (content : VaultContent) (path : String) (body : Payload) :
    VaultContent :=
  fun other => if other = path then some (body.orElse more) else content other

/-- A world that keeps what is written. -/
def mirror (store : StoreContent) (more : Payload) : World VaultContent where
  answer
    | .clock, v => (⟨0, 0⟩, v)
    | .readCaFile path, v => (store.caFile path, v)
    | .vault (.login ..), v => (.ok "token", v)
    | .vault (.read _ path), v => (.ok (v path), v)
    | .vault (.write _ path body), v => (.ok none, put more v path body)
    | .vault (.delete ..), v => (.ok (), v)
    | .cluster (.serviceAccountToken ..), v => (.ok "jwt", v)
    | .cluster (.getSecret ns name), v => (.ok (store.secrets ns name), v)
    | .cluster (.getRandomSecret ns name), v => (.ok (store.randomSecrets ns name), v)
    | .cluster (.getPki ..), v => (.ok none, v)
    | .cluster (.createSecret _), v => (.ok (), v)
    | .cluster (.deleteSecret ..), v => (.ok (), v)
    | .cluster (.patchFinalizers ..), v => (.ok (), v)
    | .cluster (.patchStatus ..), v => (.ok (), v)

variable {store : StoreContent} {more : Payload}

theorem shows_orElse (body more : Payload) : Comparison.Shows secret body (body.orElse more) := by
  intro key value _ hvalue
  rw [Dict.get?_orElse, hvalue, Option.some_or]

theorem foundAt_put (content : VaultContent) (path : String) (body : Payload) :
    FoundAt (put more content path body) path (Comparison.Shows secret body) :=
  ⟨body.orElse more, if_pos rfl, shows_orElse body more⟩

theorem echoes_put_config (content : VaultContent) (path : String) (body : Payload) :
    (Backend.config secret).Echoes content (put more content path body) path body :=
  ⟨foundAt_put content path body, fun _ hother => if_neg hother⟩

theorem echoes_put_keyValue (content : VaultContent) (path : String) (body : Payload) :
    (Backend.keyValue false).Echoes content (put more content path body) path body :=
  foundAt_put content path body

/-- Whatever runs before a mirror happens to a Vault that echoes. -/
theorem happens_run {engine : Backend}
    (hechoes : ∀ content path body, engine.Echoes content (put more content path body) path body)
    (p : Program α) (content : VaultContent) :
    Happens store engine content (p.run (mirror store more) content).events
      (p.run (mirror store more) content).state := by
  induction p generalizing content with
  | done a => exact rfl
  | abort => exact rfl
  | count metric p ih => exact ⟨content, ⟨trivial, rfl⟩, ih content⟩
  | call c next ih =>
    refine ⟨_, ?_, ih _ _⟩
    cases c with
    | clock => exact ⟨trivial, rfl⟩
    | readCaFile path => exact ⟨rfl, rfl⟩
    | vault c =>
      cases c with
      | login target request => exact ⟨⟨"token", rfl⟩, rfl⟩
      | read session path => exact ⟨rfl, rfl⟩
      | write session path body => exact hechoes content path body
      | delete session path => exact ⟨trivial, rfl⟩
    | cluster c =>
      cases c with
      | serviceAccountToken => exact ⟨⟨"jwt", rfl⟩, rfl⟩
      | getSecret => exact ⟨rfl, rfl⟩
      | getRandomSecret => exact ⟨rfl, rfl⟩
      | getPki => exact ⟨trivial, rfl⟩
      | createSecret => exact ⟨trivial, rfl⟩
      | deleteSecret => exact ⟨trivial, rfl⟩
      | patchFinalizers => exact ⟨trivial, rfl⟩
      | patchStatus => exact ⟨trivial, rfl⟩

end VaultOperator
