import VaultOperator.Proofs.Engine.Discipline
import VaultOperator.Proofs.Policy.Rendering

/-!
# A pass over a policy

Once it is logged in, a pass asks for the auth methods if there is a placeholder and only then
(`Gathered.listsAuth_iff`), and what it writes is what was rendered with the answer
(`reconcile_rendered`).
-/

namespace VaultOperator.Policy

open Program (Exec)

variable {p : Policy}

/-- Vault was asked for its auth methods, and gave `answer`. -/
def ListsAuth (es : List Event) (answer : Except Vault.Error (Option Payload)) : Prop :=
  ∃ session, .call (.vault (.read session Path.MountTable.auth.path)) answer ∈ es

theorem listsAuth_append :
    ListsAuth (es ++ fs) answer ↔ ListsAuth es answer ∨ ListsAuth fs answer := by
  simp [ListsAuth, exists_or]

/-- What is prepared for a policy. -/
inductive Prepared (p : Policy) (session : Vault.Session) :
    List Event → Except ReconcileError InternalValues → Prop
  | plain (hplain : ¬ HasPlaceholder p.spec.policy.toList) : Prepared p session [] (.ok {})
  | unread (hplaceholder : HasPlaceholder p.spec.policy.toList) (cause : Vault.Error) :
    Prepared p session [.call (.vault (.read session Path.MountTable.auth.path)) (.error cause)]
      (.error (.remote cause))
  | rendered (hplaceholder : HasPlaceholder p.spec.policy.toList) (found : Option Payload)
    (hrender : renderAccessors p.spec.policy (found.getD ∅) = .ok rendered) :
    Prepared p session [.call (.vault (.read session Path.MountTable.auth.path)) (.ok found)]
      (.ok { rendered := (∅ : Dict String).insert bodyKey rendered })
  | missing (hplaceholder : HasPlaceholder p.spec.policy.toList) (found : Option Payload)
    (hrender : renderAccessors p.spec.policy (found.getD ∅) = .error name) :
    Prepared p session [.call (.vault (.read session Path.MountTable.auth.path)) (.ok found)]
      (.error (.awaiting ("auth mount '" ++ name ++ "' referenced by the policy does not exist")))

theorem prepare_ends (h : Ends (prepare p session) es r) : Prepared p session es r := by
  unfold prepare at h
  split at h
  · next hempty =>
    obtain ⟨rfl, rfl⟩ := ends_pure.1 h
    exact .plain (isEmpty_referencedMounts_iff.1 hempty)
  · next hsome =>
    have hplaceholder := Classical.not_not.1 (mt isEmpty_referencedMounts_iff.2 hsome)
    rcases ends_bind.1 h with ⟨found, es₁, es₂, hread, h₁, rfl⟩ | ⟨e, hread, rfl⟩
    · obtain ⟨answer, rfl, hok⟩ := Pass.ends_read.1 hread
      obtain rfl := ok_eq_mapError.1 hok
      split at h₁
      · next hrender =>
        obtain ⟨rfl, rfl⟩ := ends_pure.1 h₁
        exact .rendered hplaceholder found hrender
      · next hrender =>
        obtain ⟨rfl, rfl⟩ := ends_throw.1 h₁
        exact .missing hplaceholder found hrender
    · obtain ⟨answer, rfl, herror⟩ := Pass.ends_read.1 hread
      obtain ⟨cause, rfl, rfl⟩ := error_eq_mapError.1 herror
      exact .unread hplaceholder cause

theorem Prepared.listsAuth_iff (h : Prepared p session es r) :
    (∃ answer, ListsAuth es answer) ↔ HasPlaceholder p.spec.policy.toList := by
  cases h with
  | plain hplain => simp [ListsAuth, hplain]
  | unread hplaceholder | rendered hplaceholder | missing hplaceholder =>
    exact ⟨fun _ => hplaceholder, fun _ => ⟨_, session, List.mem_singleton_self _⟩⟩

/-- What is written is the text as it was rendered with what Vault listed, or as it is if it has no
placeholder. -/
def IsRendered (p : Policy) (es : List Event) (body : Payload) : Prop :=
  ∃ rendered, body = (∅ : Payload).insert "policy" (.str rendered) ∧
    (¬ HasPlaceholder p.spec.policy.toList → rendered = p.spec.policy) ∧
    ∀ answer, ListsAuth es answer →
      ∃ found, answer = .ok found ∧ renderAccessors p.spec.policy (found.getD ∅) = .ok rendered

theorem Prepared.isRendered (h : Prepared p session es (.ok v)) :
    IsRendered p es (payload p v) := by
  cases h with
  | plain hplain => exact ⟨p.spec.policy, rfl, fun _ => rfl, by simp [ListsAuth]⟩
  | @rendered rendered hplaceholder found hrender =>
    refine ⟨rendered, ?_, absurd hplaceholder, ?_⟩
    · rw [payload, Dict.get?_insert, if_pos rfl]
      rfl
    · rintro answer ⟨used, hmem⟩
      cases List.mem_singleton.1 hmem
      exact ⟨found, rfl, hrender⟩

/-- Asks nothing about the auth methods, and writes only what is made of `v`. -/
def Finishes (p : Policy) (v : InternalValues) : Call → Prop
  | .vault (.read _ path) => path ≠ Path.MountTable.auth.path
  | .vault (.write _ _ body) => body = payload p v
  | _ => True

theorem concludes_write (session : Vault.Session) (v : InternalValues) :
    Concludes (Finishes p v)
      (Engine.write session p.toVaultObject v fun v => ⟨p.toVaultObject.path, payload p v⟩) := by
  show Concludes _ (Pass.write session p.toVaultObject.path (payload p v) >>= fun _ => pure ())
  exact .bind (Pass.concludes_write rfl) fun _ => concludes_pure

theorem concludes_settle (session : Vault.Session) (v : InternalValues) :
    Concludes (Finishes p v) (do
      Engine.settle p.toVaultObject session v (← p.toVaultObject.readObserved session)) := by
  refine .bind (Pass.concludes_read path_ne.symm) fun observed => ?_
  cases observed with
  | none => exact .bind (concludes_write session v) fun _ => concludes_pure
  | some observed =>
    refine .bind concludes_pure fun same => ?_
    cases same with
    | true => exact concludes_pure
    | false => exact .bind (concludes_write session v) fun _ => concludes_pure

/-- What is known of a policy before Vault is asked for it. -/
inductive Gathered (s : Engine.Settings) (p : Policy) :
    List Event → Except ReconcileError (Vault.Session × InternalValues) → Prop
  | invalid (cause : ValidationError) : Gathered s p [] (.error (.validation cause))
  | shutOut (hlogin : Engine.LoginTrace s p.metadata.nsAny p.spec.access es (.error e)) :
    Gathered s p es (.error e)
  | admitted (hlogin : Engine.LoginTrace s p.metadata.nsAny p.spec.access es (.ok session))
    (hprepared : Prepared p session fs prepared) :
    Gathered s p (es ++ fs) (prepared.map fun v => (session, v))

theorem gather_ends (h : Ends (Engine.gather s p.toVaultObject) es r) : Gathered s p es r := by
  rcases ends_bind.1 h with ⟨_, es₁, es₂, hcheck, h₁, rfl⟩ | ⟨e, hcheck, rfl⟩
  · obtain ⟨rfl, -⟩ := Pass.ends_check.1 hcheck
    rcases ends_bind.1 h₁ with ⟨session, es₃, es₄, hlogin, h₂, rfl⟩ | ⟨e, hlogin, rfl⟩
    · have hlogin := Engine.login_trace hlogin
      rcases ends_bind.1 h₂ with ⟨v, es₅, es₆, hprepare, hdone, rfl⟩ | ⟨e, hprepare, rfl⟩
      · obtain ⟨rfl, rfl⟩ := ends_pure.1 hdone
        rw [List.append_nil]
        exact .admitted hlogin (prepare_ends hprepare)
      · exact .admitted hlogin (prepare_ends hprepare)
    · exact .shutOut (Engine.login_trace hlogin)
  · obtain ⟨rfl, hcause⟩ := Pass.ends_check.1 hcheck
    obtain ⟨cause, -, rfl⟩ := error_eq_mapError.1 hcause
    exact .invalid cause

theorem not_listsAuth_of_login (h : Engine.LoginTrace s ns access es r) (answer) :
    ¬ ListsAuth es answer := by
  rintro ⟨session, hmem⟩
  exact nomatch h.isLoginStep _ hmem

theorem loggedIn_of_login (h : Engine.LoginTrace s ns access es (.ok session)) : LoggedIn es := by
  cases h.loginEnd with
  | granted _ request before hes => simp [hes, Event.grantsLogin]

theorem not_loggedIn_of_login (h : Engine.LoginTrace s ns access es (.error e)) :
    ¬ LoggedIn es := by
  cases h.loginEnd with
  | refused _ hes => exact hes

theorem Prepared.writes_eq (h : Prepared p session es r) : writes es = [] := by
  cases h <;> rfl

theorem Gathered.writes_eq (h : Gathered s p es r) : writes es = [] := by
  cases h with
  | invalid => rfl
  | shutOut hlogin => exact hlogin.writes_eq
  | admitted hlogin hprepared => rw [writes_append, hlogin.writes_eq, hprepared.writes_eq]; rfl

theorem Gathered.listsAuth_iff (h : Gathered s p es r) :
    (∃ answer, ListsAuth es answer) ↔ LoggedIn es ∧ HasPlaceholder p.spec.policy.toList := by
  cases h with
  | invalid => simp [ListsAuth]
  | shutOut hlogin => simp [not_listsAuth_of_login hlogin, not_loggedIn_of_login hlogin]
  | admitted hlogin hprepared =>
    simp only [listsAuth_append, not_listsAuth_of_login hlogin, false_or, hprepared.listsAuth_iff,
      loggedIn_append, loggedIn_of_login hlogin, true_or, true_and]

theorem IsRendered.congr (h : IsRendered p es body)
    (hlists : ∀ answer, ListsAuth fs answer ↔ ListsAuth es answer) : IsRendered p fs body := by
  obtain ⟨rendered, hbody, hplain, hlisted⟩ := h
  exact ⟨rendered, hbody, hplain, fun answer hanswer => hlisted answer ((hlists answer).1 hanswer)⟩

theorem Gathered.isRendered (h : Gathered s p es (.ok (session, v))) :
    LoggedIn es ∧ IsRendered p es (payload p v) := by
  generalize hr : Except.ok (session, v) = r at h
  cases h with
  | invalid | shutOut => cases hr
  | @admitted es session' fs prepared hlogin hprepared =>
    cases prepared with
    | error e => cases hr
    | ok v' =>
      cases hr
      refine ⟨loggedIn_append.2 (.inl (loggedIn_of_login hlogin)), ?_⟩
      refine hprepared.isRendered.congr fun answer => ?_
      simp [listsAuth_append, not_listsAuth_of_login hlogin]

theorem concludes_gather : Concludes (fun _ => True) (Engine.gather s p.toVaultObject) := by
  refine .bind Pass.concludes_check fun _ => .bind (Engine.concludes_login fun _ _ => trivial)
    fun session => .bind ?_ fun _ => concludes_pure
  exact concludes_prepare.mono fun _ _ => trivial

/-- The auth methods are asked for once it is known that there is a placeholder, and what is written
is what was rendered. -/
theorem reconcile_rendered (h : Exec (Engine.reconcile s p.toVaultObject).run es r) :
    ((∃ answer, ListsAuth es answer) ↔ LoggedIn es ∧ HasPlaceholder p.spec.policy.toList) ∧
      ∀ w ∈ writes es, IsRendered p es w.body := by
  rw [Engine.reconcile_eq_gather] at h
  rcases exec_run_bind.1 h with ⟨⟨session, v⟩, es₁, es₂, hgather, hrest, rfl⟩ | ⟨e, hgather, -⟩ |
    ⟨hgather, -⟩
  · have hgathered := gather_ends hgather
    obtain ⟨hlogged, hrendered⟩ := hgathered.isRendered
    have hcalls := (concludes_settle session v es₂ r hrest).2
    have hlists (answer) : ListsAuth (es₁ ++ es₂) answer ↔ ListsAuth es₁ answer := by
      rw [listsAuth_append, or_iff_left]
      rintro ⟨used, hmem⟩
      exact hcalls _ _ hmem rfl
    constructor
    · simp only [hlists, hgathered.listsAuth_iff, loggedIn_append, hlogged, true_or, true_and]
    · intro w hw
      rw [writes_append, hgathered.writes_eq, List.nil_append] at hw
      rw [hcalls _ _ (mem_writes.1 hw)]
      exact hrendered.congr hlists
  · have hgathered := gather_ends hgather
    refine ⟨hgathered.listsAuth_iff, ?_⟩
    simp [hgathered.writes_eq]
  · obtain ⟨_, ⟨⟩, -⟩ := concludes_gather.ends hgather

/-- A policy is cut at its placeholders in one way. The mounts that it names are those of the cut,
each where it first occurs; the first of them that the listing gives no accessor for is the error,
and if there is none their accessors take the places of the placeholders and nothing else changes.
A pass that is logged in asks for the listing if there is a placeholder and only then, and writes
the text that was rendered with what it was given. -/
theorem renderAccessors_fills :
    (∀ policy : String, ∃ holes tail, IsCut policy.toList holes tail ∧
      (∀ holes' tail', IsCut policy.toList holes' tail' → holes' = holes ∧ tail' = tail) ∧
      referencedMounts policy = (holes.map Hole.mount).eraseDups.map String.ofList ∧
      ∀ table,
        (∀ before mount after, holes.map Hole.mount = before ++ mount :: after →
          (∀ m ∈ before, ∃ a, HasAccessor table m a) → (∀ a, ¬ HasAccessor table mount a) →
            renderAccessors policy table = .error (String.ofList mount)) ∧
        ∀ accessor : List Char → String,
          (∀ hole ∈ holes, HasAccessor table hole.mount (accessor hole.mount)) →
            renderAccessors policy table = .ok (fill accessor holes tail)) ∧
    (∀ policy : String, ¬ HasPlaceholder policy.toList →
      ∀ table, renderAccessors policy table = .ok policy) ∧
    ∀ (p : Policy) (s : Engine.Settings) (es : List Event)
      (r : Option (Except ReconcileError SyncOutcome)),
      Exec (Engine.reconcile s p.toVaultObject).run es r →
        ((∃ answer, ListsAuth es answer) ↔ LoggedIn es ∧ HasPlaceholder p.spec.policy.toList) ∧
          ∀ w ∈ writes es, IsRendered p es w.body := by
  refine ⟨fun policy => ?_, fun policy => renderAccessors_of_not_hasPlaceholder,
    fun p s es r => reconcile_rendered⟩
  obtain ⟨holes, tail, hcut⟩ := exists_isCut policy.toList
  refine ⟨holes, tail, hcut, fun holes' tail' hcut' => hcut'.unique hcut, hcut.referencedMounts_eq,
    fun table => ⟨fun before mount after => hcut.renderAccessors_error, hcut.renderAccessors_ok⟩⟩

/-- Two placeholders, the second of which has an opening in its name. -/
def opened : Policy where
  metadata := { name := some "opened" }
  spec :=
    { access := Object.admin
      policy := String.ofList (placeholder ['k'] ++ 'a' :: placeholder (opening ++ ['k'])) }
  status := none

def openedHoles : List Hole :=
  [⟨[], ['k']⟩, ⟨['a'], opening ++ ['k']⟩]

theorem isCut_opened : IsCut opened.spec.policy.toList openedHoles [] := by
  have hsecond : IsCut ('a' :: placeholder (opening ++ ['k'])) [⟨['a'], opening ++ ['k']⟩] [] := by
    refine .next (by simp) ⟨by decide, by decide⟩ ?_ (.last (by decide))
    intro k hk
    obtain rfl := Nat.lt_one_iff.1 hk
    exact not_occursAt_of_mountAt? (by decide)
  rw [opened, String.toList_ofList]
  exact .next rfl ⟨by decide, by decide⟩ nofun hsecond

def methods : Payload :=
  Dict.ofList [("k/", .obj [("accessor", .str "one")]),
    (String.ofList (opening ++ ['k']) ++ "/", .obj [("accessor", .str "two")])]

/-- A name that holds an opening is a name like others. -/
theorem renderAccessors_fills_opened :
    renderAccessors opened.spec.policy (methods.erase "k/") = .error "k" ∧
      renderAccessors opened.spec.policy methods = .ok "oneatwo" ∧
      renderAccessors "auth/k/@accessor" methods = .ok "auth/k/@accessor" ∧
      ∃ es r, Exec (Engine.reconcile {} opened.toVaultObject).run es r ∧
        (∃ answer, ListsAuth es answer) ∧ ∃ w ∈ writes es, IsRendered opened es w.body := by
  obtain ⟨htexts, hplain, hpasses⟩ := renderAccessors_fills
  obtain ⟨holes, tail, -, hunique, -, htables⟩ := htexts opened.spec.policy
  obtain ⟨rfl, rfl⟩ := hunique _ _ isCut_opened
  let pass := Object.passOver Object.noStore ∅ (.policy opened) fun path =>
    if path = "sys/auth" then some methods else none
  have hexec : Exec (Engine.reconcile {} opened.toVaultObject).run pass.events pass.result :=
    Program.exec_run _ _ _
  obtain ⟨hlists, hwritten⟩ := hpasses opened {} _ _ hexec
  obtain ⟨w, hw⟩ := List.exists_mem_of_ne_nil (writes pass.events) (by decide +kernel)
  refine ⟨?_, ?_, hplain _ (by decide) _, _, _, hexec, ?_, w, hw, hwritten w hw⟩
  · refine (htables _).1 [] ['k'] [opening ++ ['k']] rfl nofun ?_
    rintro a ⟨entry, hentry, -⟩
    cases hentry
  · refine (htables methods).2 (fun mount => if mount = ['k'] then "one" else "two") ?_
    intro hole hhole
    rcases List.mem_cons.1 hhole with rfl | hhole
    · exact ⟨_, rfl, rfl⟩
    · obtain rfl := List.mem_singleton.1 hhole
      exact ⟨_, rfl, rfl⟩
  · have hlogged : ∃ e ∈ pass.events, e.grantsLogin := by decide +kernel
    exact hlists.2 ⟨hlogged, by decide +kernel⟩

end VaultOperator.Policy
