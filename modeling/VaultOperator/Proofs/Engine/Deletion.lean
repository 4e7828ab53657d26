import VaultOperator.Object
import VaultOperator.Proofs.Engine.Login
import VaultOperator.Proofs.Pass.Follows

/-!
# Deletions

A deletion of an object that can be deleted is a login and one delete of Vault, whose answer tells
how it ends: it is done where Vault deleted something or found nothing there, and any other error
ends it (`AnswersDelete`). A deletion of any other object is done at once (`delete_trace`).
-/

namespace VaultOperator

namespace Event

def isDelete : Event → Bool
  | .call (.vault (.delete ..)) _ => true
  | _ => false

end Event

namespace Engine

variable {s : Settings} {o : VaultObject}

def deleteEvent (o : VaultObject) (session : Vault.Session) (answer : Except Vault.Error Unit) :
    Event :=
  .call (.vault (.delete session o.deletePath)) answer

/-- What an answer makes of a deletion. Nothing to delete is as good as something deleted. -/
inductive AnswersDelete : Except Vault.Error Unit → Except ReconcileError DeleteOutcome → Prop
  | deleted : AnswersDelete (.ok ()) (.ok .deleted)
  | absent (path : String) : AnswersDelete (.error (.notFound path)) (.ok .alreadyAbsent)
  | refused (hpresent : ∀ path, e ≠ .notFound path) : AnswersDelete (.error e) (.error (.remote e))

theorem deleteOutcome_eq_iff : deleteOutcome answer = result ↔ AnswersDelete answer result := by
  constructor
  · rintro rfl
    cases answer with
    | ok => exact .deleted
    | error e =>
      cases e with
      | notFound path => exact .absent path
      | _ => exact .refused nofun
  · intro h
    cases h with
    | deleted | absent => rfl
    | @refused e hpresent =>
      cases e with
      | notFound path => exact absurd rfl (hpresent path)
      | _ => rfl

theorem AnswersDelete.unique (h : AnswersDelete answer result) (h' : AnswersDelete answer result') :
    result = result' :=
  (deleteOutcome_eq_iff.2 h).symm.trans (deleteOutcome_eq_iff.2 h')

/-- A deletion from its first event to its last. -/
inductive DeleteTrace (s : Settings) (o : VaultObject) :
    List Event → Except ReconcileError DeleteOutcome → Prop
  | skipped (hkept : o.isDeletable = false) : DeleteTrace s o [] (.ok .skipped)
  | shutOut (hdeletable : o.isDeletable) (hlogin : LoginTrace s o.ns o.access es (.error e)) :
    DeleteTrace s o es (.error e)
  | answered (hdeletable : o.isDeletable) (hlogin : LoginTrace s o.ns o.access es (.ok session))
    (answer : Except Vault.Error Unit) (hanswer : AnswersDelete answer result) :
    DeleteTrace s o (es ++ [deleteEvent o session answer]) result

theorem delete_trace (h : Program.Exec (delete s o).run es r) :
    ∃ result, r = some result ∧ Ends (delete s o) es result ∧ DeleteTrace s o es result := by
  have hwhole := h
  unfold delete at h
  cases hdeletable : o.isDeletable with
  | false =>
    simp only [hdeletable, Bool.not_false, if_true] at h
    obtain ⟨rfl, rfl⟩ := Program.exec_done.1 h
    exact ⟨_, rfl, hwhole, .skipped hdeletable⟩
  | true =>
    simp only [hdeletable, Bool.not_true, Bool.false_eq_true, if_false] at h
    rcases exec_run_bind.1 h with ⟨session, es₁, es₂, hlogin, hdelete, rfl⟩ | ⟨e, hlogin, rfl⟩ |
      ⟨hlogin, -⟩
    · obtain ⟨answer, rest, rfl, hdone⟩ := Program.exec_call.1 hdelete
      obtain ⟨rfl, rfl⟩ := Program.exec_done.1 hdone
      have hanswer : AnswersDelete answer (deleteOutcome answer) := deleteOutcome_eq_iff.1 rfl
      exact ⟨_, rfl, hwhole, .answered hdeletable (login_trace hlogin) answer hanswer⟩
    · exact ⟨_, rfl, hwhole, .shutOut hdeletable (login_trace hlogin)⟩
    · obtain ⟨_, ⟨⟩, -⟩ := (concludes_login (P := fun _ => True) fun _ _ => trivial).ends hlogin

theorem deleteTrace_of_ends (h : Ends (delete s o) es result) : DeleteTrace s o es result := by
  obtain ⟨_, ⟨⟩, -, htrace⟩ := delete_trace h
  exact htrace

/-- Nothing is written, and no object of the cluster is changed. -/
theorem DeleteTrace.calls (h : DeleteTrace s o es result) :
    ∀ c answer, .call c answer ∈ es → c.WritesNothing ∧ c.isPatch = false := by
  have hsteps {es r} (hlogin : LoginTrace s o.ns o.access es r) :
      ∀ c answer, .call c answer ∈ es → c.WritesNothing ∧ c.isPatch = false :=
    fun c answer hmem =>
      have hstep : c.isLoginStep := hlogin.isLoginStep _ hmem
      ⟨Call.writesNothing_of_isLoginStep hstep, Call.not_isPatch_of_isLoginStep hstep⟩
  cases h with
  | skipped => exact fun _ _ hmem => nomatch hmem
  | shutOut _ hlogin => exact hsteps hlogin
  | answered _ hlogin =>
    intro c answer' hmem
    rcases List.mem_append.1 hmem with hmem | hmem
    · exact hsteps hlogin c answer' hmem
    · cases List.mem_singleton.1 hmem
      exact ⟨trivial, rfl⟩

end Engine

namespace Object

variable {settings : Engine.Settings} {o : Object}

theorem isDeletable_iff : o.toVaultObject.isDeletable ↔ o.kind ≠ .ldap := by
  cases o <;> simp [toVaultObject, kind, Policy.toVaultObject, SecretMount.toVaultObject,
    AuthMount.toVaultObject, Mount.Definition.toVaultObject, Database.toVaultObject,
    Ldap.toVaultObject, RandomSecret.toVaultObject, Pki.toVaultObject]

/-- A deletion of an object from Vault. All kinds but one have something to delete. -/
structure Deletion (settings : Engine.Settings) (o : Object) (es : List Event)
    (result : Except ReconcileError DeleteOutcome) : Prop where
  ends : Ends (o.delete settings) es result
  trace : Engine.DeleteTrace settings o.toVaultObject es result
  skipped_iff : result = .ok .skipped ↔ o.kind = .ldap

theorem deletion_of_ends (h : Ends (o.delete settings) es result) :
    o.Deletion settings es result := by
  have htrace := Engine.deleteTrace_of_ends h
  refine ⟨h, htrace, ?_⟩
  cases htrace with
  | skipped hkept =>
    refine iff_of_true rfl (Decidable.not_not.1 fun hkind => ?_)
    rw [isDeletable_iff.2 hkind] at hkept
    cases hkept
  | shutOut hdeletable => exact iff_of_false nofun (isDeletable_iff.1 hdeletable)
  | answered hdeletable _ answer hanswer =>
    refine iff_of_false (fun hskipped => ?_) (isDeletable_iff.1 hdeletable)
    subst hskipped
    cases hanswer

/-- Nothing is written, and no object of the cluster is changed. -/
theorem Deletion.calls (h : o.Deletion settings es result) :
    ∀ c answer, .call c answer ∈ es → c.WritesNothing ∧ c.isPatch = false :=
  h.trace.calls

end Object

end VaultOperator
