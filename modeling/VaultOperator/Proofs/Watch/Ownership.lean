import VaultOperator.Proofs.Watch.Life

/-!
# What is done for a declaration that is not valid

Nothing is written for it, and Vault is left alone altogether until the object is to be deleted
(`invalid_writes_nothing`). A deletion does not ask whether the declaration is valid: what an
earlier one brought about is removed too, and what was there before any (`invalid_deleted`).
-/

namespace VaultOperator

/-- The checks that a declaration has to pass before it is acted on. -/
def Object.IsValid (o : Object) : Prop :=
  o.toVaultObject.validate = .ok ()

/-- Vault is not asked for anything. -/
def LeavesVault (es : List Event) : Prop :=
  ∀ c answer, .call c answer ∈ es → c.isVault = false

theorem leavesVault_nil : LeavesVault [] :=
  fun _ _ hmem => nomatch hmem

theorem LeavesVault.append (h : LeavesVault es) (h' : LeavesVault fs) : LeavesVault (es ++ fs) :=
  fun c answer hmem => (List.mem_append.1 hmem).elim (h c answer) (h' c answer)

theorem LeavesVault.cons_call (hc : c.isVault = false) (h : LeavesVault es) :
    LeavesVault (.call c answer :: es) := by
  intro c' answer' hmem
  rcases List.mem_cons.1 hmem with hmem | hmem
  · cases hmem
    exact hc
  · exact h c' answer' hmem

theorem LeavesVault.cons_count (h : LeavesVault es) : LeavesVault (.count metric :: es) :=
  fun c answer hmem => h c answer ((List.mem_cons.1 hmem).resolve_left nofun)

theorem LeavesVault.of_append_left (h : LeavesVault (es ++ fs)) : LeavesVault es :=
  fun c answer hmem => h c answer (List.mem_append_left _ hmem)

theorem LeavesVault.writes_eq (h : LeavesVault es) : writes es = [] := by
  refine writes_eq_nil_of_writesNothing fun c answer hmem => ?_
  have hc := h c answer hmem
  cases c with
  | vault => cases hc
  | _ => trivial

theorem LeavesVault.not_isDelete (h : LeavesVault es) (he : e ∈ es) : ¬ e.isDelete := by
  intro hdelete
  unfold Event.isDelete at hdelete
  split at hdelete
  · cases h _ _ he
  · cases hdelete

namespace Path

theorem ne_empty_of_segmentsOf {path : String} (h : segmentsOf path.toList ≠ []) : path ≠ "" := by
  rintro rfl
  exact h rfl

/-- What is deleted of an authority lies below a mount. -/
theorem deleteRoot_ne {mount : String} (h : segmentsOf mount.toList ≠ []) :
    PkiOperation.deleteRoot.path mount ≠ "root" := by
  intro hroot
  have hsegments := PkiOperation.segmentsOf_path .deleteRoot mount
  rw [hroot] at hsegments
  have hlength := congrArg List.length hsegments
  rw [List.length_append] at hlength
  have hmount := List.length_pos_iff.2 h
  have hone : (segmentsOf "root".toList).length = 1 := by decide
  have hsuffix : (PkiOperation.deleteRoot.suffix.map String.toList).length = 1 := rfl
  omega

end Path

theorem RandomSecret.deletePath_ne_empty {r : RandomSecret} (h : vaultPath r = .ok path) :
    deletePath r ≠ "" := by
  apply Path.ne_empty_of_segmentsOf
  have hsegments := Path.segmentsOf_build_ne_nil h
  rw [Path.segmentsOf_of_build h] at hsegments
  unfold deletePath readPath
  split
  · have hmiddle : Path.segmentsOf "metadata".toList ≠ [] := by decide
    simp only [Path.kvMetadataPath, Path.segmentsOf_join, List.flatMap_cons, ne_eq,
      List.append_eq_nil_iff, hmiddle, false_and, and_false, not_false_eq_true]
  · next hv1 =>
    have hv1 : r.spec.kvV2 = false := by simpa using hv1
    have hempty : Path.segmentsOf "".toList = [] := by decide
    rw [hv1] at hsegments ⊢
    simpa only [Path.Step.raw?, Path.kvPath, Bool.false_eq_true, if_false, Path.segmentsOf_join,
      List.filterMap_cons, List.filterMap_nil, List.flatMap_cons, List.flatMap_nil, hempty,
      List.append_nil, secretName] using hsegments

theorem Pki.mount_eq {p : Pki} (h : vaultPath p = .ok path) : mount p = path := by
  rw [mount, h]

namespace Object

variable {settings : Engine.Settings} {o : Object}

/-- What is deleted of an object that has a place in Vault. -/
theorem deletePath_ne (h : o.toVaultObject.vaultPath = .ok path) :
    o.toVaultObject.deletePath ≠ "" ∧ (o.kind = .pki → o.toVaultObject.deletePath ≠ "root") := by
  cases o with
  | randomSecret => exact ⟨RandomSecret.deletePath_ne_empty h, fun hkind => by cases hkind⟩
  | pki p =>
    simp only [toVaultObject, Pki.toVaultObject] at h ⊢
    have hsegments := Path.segmentsOf_build_ne_nil h
    rw [← Pki.mount_eq h] at hsegments
    refine ⟨Path.ne_empty_of_segmentsOf ?_, fun _ => Path.deleteRoot_ne hsegments⟩
    rw [Path.PkiOperation.segmentsOf_path]
    simp [hsegments]
  | _ =>
    -- all others are deleted where they are kept
    simp only [toVaultObject, Policy.toVaultObject, SecretMount.toVaultObject,
      AuthMount.toVaultObject, Mount.Definition.toVaultObject, Database.toVaultObject,
      Ldap.toVaultObject] at h ⊢
    rw [h]
    exact ⟨(Path.build_ok h).2, fun hkind => by cases hkind⟩

/-- A pass over an object that is not valid ends at once. -/
theorem sync_of_not_isValid (hinvalid : ¬ o.IsValid) (h : Program.Exec (o.sync settings) es r) :
    es = [] := by
  by_cases hkind : o.kind = .pki
  · cases o with
    | pki p =>
      obtain ⟨result, next, -, hpass⟩ := Pki.exec_sync h
      have hends : EndsWith (Pki.run settings p) (Pki.progress p) es result next := hpass
      unfold Pki.run at hends
      rcases endsWith_bind.1 hends with ⟨_, _, _, _, hlift, -, -⟩ | ⟨_, hlift, -⟩ <;>
        obtain ⟨hcheck, -⟩ := Pki.CaPass.endsWith_lift.1 hlift <;>
        obtain ⟨rfl, hvalid⟩ := Pass.ends_check.1 hcheck
      · exact absurd (ok_eq_mapError.1 hvalid) hinvalid
      · rfl
    | _ => cases hkind
  · obtain ⟨_, hpass, -⟩ := sync_exec hkind h
    rcases exec_run_bind.1 hpass with ⟨_, _, _, hcheck, -, -⟩ | ⟨_, hcheck, -⟩ | ⟨hcheck, -⟩
    · obtain ⟨-, hvalid⟩ := Pass.ends_check.1 hcheck
      exact absurd (ok_eq_mapError.1 hvalid) hinvalid
    · exact (Pass.ends_check.1 hcheck).1
    · obtain ⟨_, ⟨⟩, -⟩ := (Pass.concludes_check (P := fun _ => True)).ends hcheck

end Object

namespace Watch

section

variable {settings : Engine.Settings} {o : Object}

-- ---------------------------------------------------------------------------
-- One look
-- ---------------------------------------------------------------------------

theorem RecordEnd.leavesVault (h : RecordEnd o outcome es) : LeavesVault es := by
  cases h with
  | unscheduled => exact (leavesVault_nil.cons_call rfl).cons_call rfl
  | recorded _ _ _ _ hcounts =>
    have hcounts : LeavesVault _ := fun c answer hmem => (hcounts c answer hmem).elim
    exact ((hcounts.cons_call rfl).cons_call rfl).cons_call rfl

theorem PassEnd.leavesVault (hinvalid : ¬ o.IsValid) (h : PassEnd settings o es) :
    LeavesVault es := by
  cases h with
  | aborted hsync =>
    obtain rfl := Object.sync_of_not_isValid hinvalid hsync
    exact leavesVault_nil.cons_count
  | ended outcome hsync hrecord =>
    obtain rfl := Object.sync_of_not_isValid hinvalid hsync
    exact hrecord.leavesVault.cons_count

/-- Vault is left alone, or asked for the deletion of an object that is to be deleted. -/
theorem RunEnd.cases_of_not_isValid (h : RunEnd settings o es) (hinvalid : ¬ o.IsValid) :
    LeavesVault es ∨ o.metadata.deleting ∧ o.metadata.hasFinalizer ∧
      ∃ deletion rest result, es = deletion ++ rest ∧
        Engine.DeleteTrace settings o.toVaultObject deletion result ∧ LeavesVault rest := by
  cases h with
  | gone => exact .inl leavesVault_nil
  | guarded => exact .inl (leavesVault_nil.cons_call rfl)
  | skipped => exact .inl (leavesVault_nil.cons_call rfl)
  | passed _ _ _ _ hpass => exact .inl ((hpass.leavesVault hinvalid).cons_call rfl)
  | released hdeleting hguarded hdelete =>
    exact .inr ⟨hdeleting, hguarded, _, _, _, rfl, hdelete.trace, leavesVault_nil.cons_call rfl⟩
  | blocked hdeleting hguarded hdelete =>
    exact .inr ⟨hdeleting, hguarded, _, _, _, rfl, hdelete.trace,
      (leavesVault_nil.cons_call rfl).cons_call rfl⟩

/-- A delete of Vault is asked for: the object is to be deleted and is of a kind that can be, and
Vault was asked for nothing but a login with the authentication of the object before, and is asked
for nothing else after. If the object has a place in Vault, neither nothing nor a bare root is
deleted. -/
structure Removes (settings : Engine.Settings) (o : Object) (before : List Event) (e : Event)
    (after : List Event) : Prop where
  deleting : o.metadata.deleting
  guarded : o.metadata.hasFinalizer
  deletable : o.toVaultObject.isDeletable
  asked : ∃ session answer,
    Engine.LoginTrace settings o.toVaultObject.ns o.toVaultObject.access before (.ok session) ∧
      e = Engine.deleteEvent o.toVaultObject session answer
  last : LeavesVault after
  placed : ∀ path, o.toVaultObject.vaultPath = .ok path →
    o.toVaultObject.deletePath ≠ "" ∧ (o.kind = .pki → o.toVaultObject.deletePath ≠ "root")

/-- What may happen while an object is looked at that is not valid. -/
structure Refrains (settings : Engine.Settings) (o : Object) (es : List Event) : Prop where
  writes : writes es = []
  leaves : ¬ (o.metadata.deleting ∧ o.metadata.hasFinalizer) → LeavesVault es
  removes : ∀ before e after, es = before ++ e :: after → e.isDelete →
    Removes settings o before e after

theorem refrains_of_leavesVault (h : LeavesVault es) : Refrains settings o es where
  writes := h.writes_eq
  leaves := fun _ => h
  removes := by
    rintro before e after rfl hdelete
    exact absurd hdelete (h.not_isDelete (List.mem_append_right _ List.mem_cons_self))

theorem not_isDelete_of_isLoginStep {e : Event} (h : e.isLoginStep) : ¬ e.isDelete := by
  intro hdelete
  unfold Event.isDelete at hdelete
  split at hdelete
  · cases h
  · cases hdelete

/-- The delete of a deletion is its last event, and its answer tells how the deletion ends. -/
theorem split_of_deleteTrace (h : Engine.DeleteTrace settings o.toVaultObject es result)
    (hrest : LeavesVault rest) (hes : es ++ rest = before ++ e :: after) (hdelete : e.isDelete) :
    o.toVaultObject.isDeletable ∧ LeavesVault after ∧ es = before ++ [e] ∧ ∃ session answer,
      Engine.LoginTrace settings o.toVaultObject.ns o.toVaultObject.access before (.ok session) ∧
      e = Engine.deleteEvent o.toVaultObject session answer ∧
      Engine.AnswersDelete answer result := by
  have hlogin {session} {login : List Event} (h : Engine.LoginTrace settings
      o.toVaultObject.ns o.toVaultObject.access login session) (he : e ∈ login) : False :=
    not_isDelete_of_isLoginStep (h.isLoginStep e he) hdelete
  cases h with
  | skipped =>
    subst hes
    exact absurd hdelete (hrest.not_isDelete (List.mem_append_right _ List.mem_cons_self))
  | shutOut _ htrace =>
    rcases append_eq_append_cons hes with ⟨_, rfl⟩ | ⟨between, rfl, rfl⟩
    · exact (hlogin htrace (by simp)).elim
    · exact absurd hdelete (hrest.not_isDelete (by simp))
  | @answered login session _ hdeletable htrace answer hanswer =>
    rw [List.append_assoc] at hes
    rcases append_eq_append_cons hes with ⟨_, rfl⟩ | ⟨between, rfl, hbehind⟩
    · exact (hlogin htrace (by simp)).elim
    · cases between with
      | nil =>
        obtain ⟨rfl, rfl⟩ := List.cons.inj hbehind
        rw [List.append_nil]
        exact ⟨hdeletable, hrest, rfl, session, answer, htrace, rfl, hanswer⟩
      | cons =>
        obtain ⟨rfl, rfl⟩ := List.cons.inj hbehind
        exact absurd hdelete (hrest.not_isDelete (by simp))

theorem removes_of_deleteTrace (h : Engine.DeleteTrace settings o.toVaultObject es result)
    (hdeleting : o.metadata.deleting) (hguarded : o.metadata.hasFinalizer)
    (hrest : LeavesVault rest) (hes : es ++ rest = before ++ e :: after) (hdelete : e.isDelete) :
    Removes settings o before e after := by
  obtain ⟨hdeletable, hlast, -, session, answer, hlogin, he, -⟩ :=
    split_of_deleteTrace h hrest hes hdelete
  exact ⟨hdeleting, hguarded, hdeletable, ⟨session, answer, hlogin, he⟩, hlast,
    fun _ => Object.deletePath_ne⟩

theorem Removes.of_append (h : Removes settings o before e (after ++ more)) :
    Removes settings o before e after :=
  { h with last := h.last.of_append_left }

/-- What may happen at all may happen up to any point. -/
theorem Refrains.of_append (h : Refrains settings o (es ++ more)) : Refrains settings o es where
  writes := by
    have hwrites := h.writes
    rw [writes_append] at hwrites
    exact (List.append_eq_nil_iff.1 hwrites).1
  leaves := fun hidle => (h.leaves hidle).of_append_left
  removes := by
    rintro before e after rfl hdelete
    exact (h.removes before e (after ++ more) (by simp) hdelete).of_append

theorem RunEnd.refrains (h : RunEnd settings o es) (hinvalid : ¬ o.IsValid) :
    Refrains settings o es := by
  rcases h.cases_of_not_isValid hinvalid with hleaves |
    ⟨hdeleting, hguarded, _, _, _, rfl, htrace, hrest⟩
  · exact refrains_of_leavesVault hleaves
  · refine ⟨?_, fun hidle => absurd ⟨hdeleting, hguarded⟩ hidle, fun before e after hes =>
      removes_of_deleteTrace htrace hdeleting hguarded hrest hes⟩
    have hdeletion := writes_eq_nil_of_writesNothing fun c answer hmem =>
      (htrace.calls c answer hmem).1
    rw [writes_append, hdeletion, hrest.writes_eq]
    rfl

end

-- ---------------------------------------------------------------------------
-- All looks
-- ---------------------------------------------------------------------------

/-- Whoever edits an object, a look at which it is not valid writes nothing to Vault, and asks for a
delete only if the object is to be deleted, once and at its own path. -/
theorem invalid_writes_nothing (life : Life Edits ref looks versions current) :
    ∀ look ∈ looks, ¬ look.seen.IsValid → Refrains (settings look.config) look.seen look.events := by
  intro look hmem hinvalid
  obtain ⟨_, _, _, hexec⟩ := (life.isOf look hmem).begun
  exact ((reconcile_ends hexec).refrains hinvalid).of_append

-- ---------------------------------------------------------------------------
-- A policy without rules
-- ---------------------------------------------------------------------------

/-- A policy that somebody else keeps in Vault. -/
def foreign : Memory.VaultServer :=
  { payloads := Dict.ofList
      [("sys/policies/acl/reader", Dict.ofList [("policy", .str "path")])] }

/-- All that is asked of the looks at the policy without rules, in one evaluation. -/
theorem blank_facts :
    (Object.ofJson? .policy (storedReader "")).isSome ∧
      (seenReader (storedReader "")).ref = readerRef ∧
      finalizer ∈ storedFinalizers (deletedReader foreign "") ∧
      (Object.ofJson? .policy (deletedReader foreign "")).isSome ∧
      (seenReader (deletedReader foreign "")).ref = readerRef ∧
      (seenReader (storedReader "")).toVaultObject.validate.isOk = false ∧
      (seenReader (deletedReader foreign "")).toVaultObject.validate.isOk = false ∧
      ∃ e ∈ (lookAtReader foreign (deletedReader foreign "")).events, e.isDelete := by
  decide +kernel

/-- A policy without rules is not valid, and its deletion deletes what stands at its path. -/
theorem life_blank :
    ∃ looks versions current, Life KeepsFinalizer readerRef looks versions current ∧
      (∀ look ∈ looks, ¬ look.seen.IsValid) ∧ ∃ look ∈ looks, ∃ e ∈ look.events, e.isDelete := by
  obtain ⟨hseen, href, hkept, hseen', href', hfirst, hsecond, hdelete⟩ := blank_facts
  obtain ⟨versions, life⟩ := life_reader foreign foreign "" hseen href hkept hseen' href'
  have hinvalid {o : Object} (h : o.toVaultObject.validate.isOk = false) : ¬ o.IsValid := by
    intro hvalid
    rw [show o.toVaultObject.validate = .ok () from hvalid] at h
    cases h
  refine ⟨_, _, _, life, fun look hmem => ?_, _, List.mem_cons_self, hdelete⟩
  rcases List.mem_cons.1 hmem with rfl | hmem
  · exact hinvalid hsecond
  · obtain rfl := List.mem_singleton.1 hmem
    exact hinvalid hfirst

/-- The policy that somebody else keeps is deleted in the one way that is left. -/
theorem invalid_writes_nothing_reader :
    ∃ looks versions current, Life KeepsFinalizer readerRef looks versions current ∧
      (∀ look ∈ looks, ¬ look.seen.IsValid ∧
        Refrains (settings look.config) look.seen look.events) ∧
      ∃ look ∈ looks, ∃ e ∈ look.events, e.isDelete := by
  obtain ⟨looks, versions, current, life, hinvalid, hdelete⟩ := life_blank
  exact ⟨looks, versions, current, life, fun look hmem => ⟨hinvalid look hmem,
    invalid_writes_nothing life look hmem (hinvalid look hmem)⟩, hdelete⟩

/-- An object that never was valid, and so never wrote anything, can have something deleted. -/
theorem invalid_deleted :
    ¬ ∀ ref looks versions current, Life KeepsFinalizer ref looks versions current →
      (∀ look ∈ looks, ¬ look.seen.IsValid) →
      ∀ look ∈ looks, writes look.events = [] ∧ ∀ e ∈ look.events, ¬ e.isDelete := by
  intro hclaim
  obtain ⟨looks, versions, current, life, hinvalid, look, hlook, e, he, hdelete⟩ := life_blank
  exact (hclaim _ looks versions current life hinvalid look hlook).2 e he hdelete

end Watch

end VaultOperator
