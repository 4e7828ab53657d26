import VaultOperator.Proofs.Engine.Login
import VaultOperator.Proofs.Engine.Sync

/-!
# Passes in which nothing fails

Where no call fails and the certificates that a connection names are there, a login is granted
(`login_ok`) and a path is brought to its payload (`syncPath_ok`).
-/

namespace VaultOperator

namespace Event

/-- A call that was answered with an error. The clock cannot fail. -/
def fails : Event → Bool
  | .call (.readCaFile _) (.error _) => true
  | .call (.vault (.login ..)) (.error _) => true
  | .call (.vault (.read ..)) (.error _) => true
  | .call (.vault (.write ..)) (.error _) => true
  | .call (.vault (.delete ..)) (.error _) => true
  | .call (.cluster (.serviceAccountToken ..)) (.error _) => true
  | .call (.cluster (.getSecret ..)) (.error _) => true
  | .call (.cluster (.createSecret _)) (.error _) => true
  | .call (.cluster (.deleteSecret ..)) (.error _) => true
  | .call (.cluster (.getRandomSecret ..)) (.error _) => true
  | .call (.cluster (.getPki ..)) (.error _) => true
  | .call (.cluster (.patchFinalizers ..)) (.error _) => true
  | .call (.cluster (.patchStatus ..)) (.error _) => true
  | _ => false

end Event

/-- No call failed. -/
def Works (es : List Event) : Prop :=
  ∀ e ∈ es, ¬ e.fails

instance : Decidable (Works es) :=
  inferInstanceAs (Decidable (∀ e ∈ es, ¬ e.fails))

theorem works_append {es fs : List Event} : Works (es ++ fs) ↔ Works es ∧ Works fs :=
  List.forall_mem_append

theorem works_cons {es : List Event} : Works (e :: es) ↔ ¬ e.fails ∧ Works es :=
  List.forall_mem_cons

namespace Engine

/-- Where the connection of `access` names a secret with certificates, they are found in it. -/
def FindsCertificates (ns : String) (access : Access) (es : List Event) : Prop :=
  ∀ secret, (access.connection.bind (·.tls)).bind (·.caSecret) = some secret →
    ∀ data, .call (.cluster (.getSecret ns secret)) (.ok data) ∈ es →
      (data.bind (·.get? caKey)).isSome

variable {s : Settings} {ns : String} {access : Access}

theorem FindsCertificates.append_left {es fs : List Event}
    (h : FindsCertificates ns access (es ++ fs)) : FindsCertificates ns access es :=
  fun secret hsecret data hmem => h secret hsecret data (List.mem_append_left _ hmem)

theorem readCaSecret_ok (h : Ends (readCaSecret ns secret) es r) (hworks : Works es)
    (hfinds : ∀ data, .call (.cluster (.getSecret ns secret)) (.ok data) ∈ es →
      (data.bind (·.get? caKey)).isSome) : ∃ pem, r = .ok pem := by
  simp only [readCaSecret, ends_bind, Pass.ends_getSecret, Pass.ends_orFail, ends_pure] at h
  rcases h with ⟨found, _, rest, ⟨answer, rfl, hanswer⟩, h, rfl⟩ | ⟨e, ⟨answer, rfl, hanswer⟩, rfl⟩
  · obtain rfl := ok_eq_mapError.1 hanswer
    obtain ⟨bytes, hbytes⟩ := Option.isSome_iff_exists.1 (hfinds found (by simp))
    obtain ⟨data, rfl, hdata⟩ := Option.bind_eq_some_iff.1 hbytes
    rcases h with ⟨_, _, _, ⟨rfl, ⟨⟩⟩, h, rfl⟩ | ⟨_, ⟨-, ⟨⟩⟩, -⟩
    rw [hdata] at h
    rcases h with ⟨_, _, _, ⟨rfl, ⟨⟩⟩, ⟨rfl, rfl⟩, rfl⟩ | ⟨_, ⟨-, ⟨⟩⟩, -⟩
    exact ⟨_, rfl⟩
  · obtain ⟨cause, rfl, -⟩ := error_eq_mapError.1 hanswer
    exact absurd rfl (hworks _ List.mem_cons_self)

theorem caPem_ok (h : Ends (caPem s ns access.connection) es r) (hworks : Works es)
    (hfinds : FindsCertificates ns access es) : ∃ pem, r = .ok pem := by
  unfold caPem at h
  split at h
  · next secret hsecret =>
    obtain ⟨r, hread, rfl⟩ := ends_map.1 h
    obtain ⟨pem, rfl⟩ := readCaSecret_ok hread hworks (hfinds secret hsecret)
    exact ⟨some pem, rfl⟩
  · obtain ⟨r, hread, rfl⟩ := ends_map.1 h
    obtain ⟨answer, rfl, rfl⟩ := (Pass.ends_attempt_ask fun _ _ => Program.exec_ask).1 hread
    cases answer with
    | ok pem => exact ⟨some pem, rfl⟩
    | error cause => exact absurd rfl (hworks _ List.mem_cons_self)
  · obtain ⟨-, rfl⟩ := ends_pure.1 h
    exact ⟨none, rfl⟩

theorem target_ok (h : Ends (target s ns access.connection) es r) (hworks : Works es)
    (hfinds : FindsCertificates ns access es) : ∃ server, r = .ok server := by
  simp only [target, ends_bind, ends_pure] at h
  rcases h with ⟨_, es₁, _, h, ⟨rfl, rfl⟩, rfl⟩ | ⟨_, h, rfl⟩
  · exact ⟨_, rfl⟩
  · obtain ⟨_, ⟨⟩⟩ := caPem_ok h hworks hfinds

theorem login_ok (h : Ends (login s ns access) es r) (hworks : Works es)
    (hfinds : FindsCertificates ns access es) : ∃ session, r = .ok session := by
  cases login_trace h with
  | untargeted htarget =>
    obtain ⟨_, ⟨⟩⟩ := target_ok htarget hworks hfinds
  | tokenless htarget cause =>
    obtain ⟨-, hrest⟩ := works_append.1 hworks
    exact absurd rfl (works_cons.1 hrest).1
  | refused htarget jwt cause =>
    obtain ⟨-, hrest⟩ := works_append.1 hworks
    obtain ⟨-, hrest⟩ := works_cons.1 hrest
    exact absurd rfl (works_cons.1 hrest).1
  | granted htarget jwt token => exact ⟨_, rfl⟩

theorem written_ok {a : α} {r : Except ReconcileError α}
    (h : Ends (Pass.write session path body >>= fun _ => pure a) es r) (hworks : Works es) :
    r = .ok a := by
  simp only [ends_bind, Pass.ends_write, ends_pure] at h
  rcases h with ⟨_, _, _, -, ⟨-, rfl⟩, -⟩ | ⟨_, ⟨answer, rfl, hanswer⟩, -⟩
  · rfl
  · obtain ⟨cause, rfl, -⟩ := error_eq_mapError.1 hanswer
    exact absurd rfl (hworks _ List.mem_cons_self)

theorem syncPath_ok (h : Ends (syncPath session path desired comparison) es r)
    (hworks : Works es) : ∃ outcome, r = .ok outcome := by
  rcases ends_bind.1 h with ⟨observed, es₁, rest, hread, hrest, rfl⟩ | ⟨_, hread, rfl⟩
  · obtain ⟨-, hworks⟩ := works_append.1 hworks
    split at hrest
    · exact ⟨_, written_ok hrest hworks⟩
    · split at hrest
      · exact ⟨_, (ends_pure.1 hrest).2⟩
      · exact ⟨_, written_ok hrest hworks⟩
  · obtain ⟨answer, rfl, hanswer⟩ := Pass.ends_read.1 hread
    obtain ⟨cause, rfl, -⟩ := error_eq_mapError.1 hanswer
    exact absurd rfl (hworks _ List.mem_cons_self)

end Engine

end VaultOperator
