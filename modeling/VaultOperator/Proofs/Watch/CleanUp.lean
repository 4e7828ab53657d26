import VaultOperator.Proofs.Engine.Working
import VaultOperator.Proofs.Watch.Ownership
import VaultOperator.Vault.Client

/-!
# What a deletion removes from Vault

Where an object was kept before is written down nowhere. A deletion removes what its declaration
names at that time (`removed_iff_named`), so that what was made stays behind if the declaration came
to name another place in between (`left_behind`).
-/

namespace VaultOperator

open Program (Exec)

-- ---------------------------------------------------------------------------
-- Endpoints
-- ---------------------------------------------------------------------------

namespace Vault

/-- What a request goes to: a URL, and a namespace of the server. -/
structure Endpoint where
  url : String
  ns : Option String
  deriving DecidableEq

def Request.endpoint (r : Request) : Endpoint := ⟨r.url, r.ns⟩

def Target.endpoint (t : Target) (path : String) : Endpoint :=
  ⟨url t.address path, namespaceOf t.ns⟩

/-- All requests of a session go to its target. -/
theorem endpoint_request {s : Session} :
    (s.request method path body).endpoint = s.target.endpoint path := rfl

end Vault

def VaultWrite.endpoint (w : VaultWrite) : Vault.Endpoint :=
  (Vault.writeExchange w.session w.path w.body).request.endpoint

namespace Engine

/-- A path on the server of the connection, which is the operator's own where nothing is said. -/
def endpointOf (s : Settings) (access : Access) (path : String) : Vault.Endpoint :=
  ⟨Vault.url ((access.connection.bind (·.address)).getD s.defaults.address) path,
    Vault.namespaceOf ((access.connection.bind (·.ns)).or s.defaults.ns)⟩

theorem endpoint_target (h : Ends (target s ns access.connection) es (.ok server)) :
    server.endpoint path = endpointOf s access path := by
  simp only [target, ends_bind, ends_pure] at h
  rcases h with ⟨_, _, _, -, ⟨-, hserver⟩, -⟩ | ⟨_, -, ⟨⟩⟩
  cases hserver
  rfl

theorem LoginTrace.endpoint (h : LoginTrace s ns access es (.ok session)) :
    session.target.endpoint path = endpointOf s access path := by
  cases h with
  | granted htarget => exact endpoint_target htarget

/-- A write that a pass was called for is the one that Vault was asked for. -/
theorem Disciplined.path_eq {used : Vault.Session} (h : Disciplined s o es r) (hw : w ∈ writes es)
    (hes : es = before ++ [writeEvent used request answer]) : w.path = request.path := by
  have hwrites : writes es = writes before ++ [⟨used, request.path, request.body, answer⟩] := by
    rw [hes, writes_append]
    rfl
  have hone := h.oneWrite
  have hbefore : writes before = [] := by
    rw [hwrites, List.length_append, List.length_singleton] at hone
    exact List.length_eq_zero_iff.1 (by omega)
  rw [hwrites, hbefore] at hw
  obtain rfl := List.mem_singleton.1 hw
  rfl

end Engine

-- ---------------------------------------------------------------------------
-- What is made and what is deleted
-- ---------------------------------------------------------------------------

namespace Object

/-- The path that is deleted for one that is written. Of a secret in the second version of the
key/value engine it is the one of the metadata, with which all versions of the secret go. -/
inductive RemovedThrough : Object → (written deleted : String) → Prop
  | itself (h : ∀ r, o = .randomSecret r → r.spec.kvV2 = false) : RemovedThrough o path path
  | metadata (r : RandomSecret) (h : r.spec.kvV2) :
    RemovedThrough (.randomSecret r) (Path.kvPath r.spec.path r.secretName true)
      (Path.kvMetadataPath r.spec.path r.secretName)

variable {settings : Engine.Settings} {o : Object}

theorem removedThrough_create (hkind : o.kind ≠ .pki) (v : InternalValues) :
    o.RemovedThrough (o.toVaultObject.createRequest v).path o.toVaultObject.deletePath := by
  cases o with
  | randomSecret r =>
    show RemovedThrough _ (RandomSecret.readPath r) (RandomSecret.deletePath r)
    cases hv2 : r.spec.kvV2 with
    | true =>
      rw [RandomSecret.deletePath, RandomSecret.readPath, hv2, if_pos rfl]
      exact .metadata r hv2
    | false =>
      rw [RandomSecret.deletePath, hv2, if_neg Bool.false_ne_true]
      exact .itself fun _ h => by cases h; exact hv2
  | pki => exact absurd rfl hkind
  | _ =>
    -- all others are deleted where they are written
    simp only [toVaultObject, Policy.toVaultObject, SecretMount.toVaultObject,
      AuthMount.toVaultObject, Mount.Definition.toVaultObject, Database.toVaultObject,
      Ldap.toVaultObject]
    exact .itself fun _ h => by cases h

theorem disciplined_of_sync (hkind : o.kind ≠ .pki) (h : Exec (o.sync settings) es r) :
    ∃ result, Engine.Disciplined settings o.toVaultObject es result ∧
      r = result.map fun ended => { result := ended } := by
  obtain ⟨result, hpass, hr⟩ := sync_exec hkind h
  exact ⟨result, (Engine.reconcile_course (keepsSession hkind) hpass).disciplined
    (keepsSession hkind), hr⟩

/-- A pass that wrote was called for the write, and tells how it went. -/
theorem calledFor_of_sync (hkind : o.kind ≠ .pki) (h : Exec (o.sync settings) es r)
    (hw : w ∈ writes es) :
    ∃ made, Engine.IsCalledFor settings o.toVaultObject es w made ∧
      r = some { result := (w.answer.mapError .remote).map fun _ => made } := by
  obtain ⟨_, hdisciplined, rfl⟩ := disciplined_of_sync hkind h
  obtain ⟨made, hcalled, rfl⟩ := hdisciplined.calledFor w hw
  exact ⟨made, hcalled, rfl⟩

/-- What a pass made that was not there stands where its declaration names it. -/
theorem created_where_named (hkind : o.kind ≠ .pki)
    (h : Exec (o.sync settings) es (some outcome)) (hcreated : outcome.result = .ok .created)
    (hw : w ∈ writes es) :
    ∃ path, w.endpoint = Engine.endpointOf settings o.toVaultObject.access path ∧
      o.RemovedThrough path o.toVaultObject.deletePath := by
  obtain ⟨_, hdisciplined, -⟩ := disciplined_of_sync hkind h
  obtain ⟨made, ⟨login, looks, request, hlogin, hrequests, hes⟩, hresult⟩ :=
    calledFor_of_sync hkind h hw
  obtain rfl := Option.some.inj hresult
  have hpath : w.path = request.path := by
    rw [← List.append_assoc] at hes
    exact hdisciplined.path_eq hw hes
  refine ⟨w.path, Vault.endpoint_request.trans hlogin.endpoint, ?_⟩
  cases hrequests with
  | create v v' => exact hpath ▸ removedThrough_create hkind v'
  | update =>
    -- then the pass would have said so
    cases hanswer : w.answer <;> rw [hanswer] at hcreated <;> cases hcreated

/-- A pass deletes nothing. -/
theorem not_isDelete_of_sync (hkind : o.kind ≠ .pki) (h : Exec (o.sync settings) es r)
    (he : e ∈ es) : ¬ e.isDelete := by
  obtain ⟨_, hdisciplined, -⟩ := disciplined_of_sync hkind h
  cases hdisciplined.session with
  | none => cases he
  | shutOut hlogin => exact Watch.not_isDelete_of_isLoginStep (hlogin.isLoginStep e he)
  | granted hlogin hrest =>
    rcases List.mem_append.1 he with he | he
    · exact Watch.not_isDelete_of_isLoginStep (hlogin.isLoginStep e he)
    · intro hdelete
      unfold Event.isDelete at hdelete
      split at hdelete
      · exact hrest _ _ he
      · cases hdelete

end Object

namespace Watch

variable {s : Engine.Settings} {o : Object}

theorem PassEnd.not_isDelete (h : PassEnd s o es) (hkind : o.kind ≠ .pki) (he : e ∈ es) :
    ¬ e.isDelete := by
  cases h with
  | aborted hsync =>
    rcases List.mem_cons.1 he with rfl | he
    · exact nofun
    · exact Object.not_isDelete_of_sync hkind hsync he
  | ended outcome hsync hrecord =>
    rcases List.mem_cons.1 he with rfl | he
    · exact nofun
    · rcases List.mem_append.1 he with he | he
      · exact Object.not_isDelete_of_sync hkind hsync he
      · exact hrecord.leavesVault.not_isDelete he

/-- A delete is asked for at the end of a deletion, which ends as the answer tells. -/
theorem split_of_deletion (h : o.Deletion s deletion result) (hrest : LeavesVault rest)
    (hes : before ++ e :: after = deletion ++ rest) (hdelete : e.isDelete) :
    ∃ session answer result,
      Engine.LoginTrace s o.toVaultObject.ns o.toVaultObject.access before (.ok session) ∧
      e = Engine.deleteEvent o.toVaultObject session answer ∧
      Engine.AnswersDelete answer result ∧ o.Deletion s (before ++ [e]) result := by
  obtain ⟨-, -, rfl, session, answer, hlogin, he, hanswer⟩ :=
    split_of_deleteTrace h.trace hrest hes.symm hdelete
  exact ⟨session, answer, result, hlogin, he, hanswer, h⟩

/-- A look asks for a delete only in a deletion, which ends with it. -/
theorem RunEnd.deletion (h : RunEnd s o (before ++ e :: after)) (hkind : o.kind ≠ .pki)
    (hdelete : e.isDelete) :
    o.metadata.deleting ∧ o.metadata.hasFinalizer ∧ ∃ session answer result,
      Engine.LoginTrace s o.toVaultObject.ns o.toVaultObject.access before (.ok session) ∧
      e = Engine.deleteEvent o.toVaultObject session answer ∧
      Engine.AnswersDelete answer result ∧ o.Deletion s (before ++ [e]) result := by
  generalize hes : before ++ e :: after = es at h
  have he : e ∈ es := hes ▸ List.mem_append_right _ List.mem_cons_self
  cases h with
  | gone => cases he
  | guarded | skipped =>
    obtain rfl := List.mem_singleton.1 he
    cases hdelete
  | released hdeleting hguarded hends =>
    exact ⟨hdeleting, hguarded,
      split_of_deletion hends (leavesVault_nil.cons_call rfl) hes hdelete⟩
  | blocked hdeleting hguarded hends =>
    exact ⟨hdeleting, hguarded,
      split_of_deletion hends ((leavesVault_nil.cons_call rfl).cons_call rfl) hes hdelete⟩
  | passed _ _ _ _ hpass =>
    rcases List.mem_cons.1 he with rfl | he
    · cases hdelete
    · exact absurd hdelete (hpass.not_isDelete hkind he)

/-- Whatever a look writes is written by a whole pass, which was called for it and tells how it
went. -/
theorem RunEnd.wrote (h : RunEnd s o es) (hkind : o.kind ≠ .pki) (hw : w ∈ writes es) :
    ∃ now pass rest outcome,
      es = clockEvent now :: .count (.reconciliation o.kind.name) :: (pass ++ rest) ∧
      Exec (o.sync s) pass (some outcome) ∧ w ∈ writes pass ∧
      ∃ made, Engine.IsCalledFor s o.toVaultObject pass w made ∧
        outcome.result = (w.answer.mapError .remote).map fun _ => made := by
  obtain ⟨hguarded, hkept⟩ := h.guarded_of_writes (List.ne_nil_of_mem hw)
  cases h with
  | gone _ hbare | guarded _ hbare => exact absurd hguarded hbare
  | released hdeleting | blocked hdeleting => exact absurd hdeleting hkept
  | skipped => exact (List.not_mem_nil hw).elim
  | passed _ _ now _ hpass =>
    have hw : w ∈ writes _ := hw
    cases hpass with
    | aborted hsync =>
      obtain ⟨_, -, hresult⟩ := Object.calledFor_of_sync hkind hsync hw
      cases hresult
    | @ended pass rest outcome hsync hrecord =>
      have hw : w ∈ writes (pass ++ rest) := hw
      rw [writes_append, hrecord.leavesVault.writes_eq, List.append_nil] at hw
      obtain ⟨made, hcalled, hresult⟩ := Object.calledFor_of_sync hkind hsync hw
      obtain rfl := Option.some.inj hresult
      exact ⟨now, pass, rest, _, rfl, hsync, hw, made, hcalled, rfl⟩

namespace Look

variable {look : Look}

/-- Where what was seen has a path. -/
def endpointAt (look : Look) (path : String) : Vault.Endpoint :=
  Engine.endpointOf (settings look.config) look.seen.toVaultObject.access path

/-- What a deletion of what was seen deletes. -/
def place (look : Look) : Vault.Endpoint :=
  look.endpointAt look.seen.toVaultObject.deletePath

/-- A pass wrote to Vault, and made there what had not been there. -/
def Creates (look : Look) (w : VaultWrite) : Prop :=
  ∃ now pass rest outcome,
    look.events = clockEvent now :: .count (.reconciliation look.seen.kind.name) :: (pass ++ rest) ∧
    Exec (look.seen.sync (settings look.config)) pass (some outcome) ∧
    outcome.result = .ok .created ∧ w ∈ writes pass

/-- Vault was asked for a delete, and says that nothing is there any more. -/
def Clears (look : Look) (endpoint : Vault.Endpoint) : Prop :=
  ∃ session path answer outcome, .call (.vault (.delete session path)) answer ∈ look.events ∧
    Engine.AnswersDelete answer (.ok outcome) ∧
    (Vault.deleteExchange session path).request.endpoint = endpoint

/-- The object was seen being deleted, and the finalizer was taken off. -/
def Releases (look : Look) : Prop :=
  look.seen.metadata.deleting ∧ ∃ answer,
    finalizersEvent look.seen (look.seen.metadata.finalizers.filter (· ≠ finalizer)) answer ∈
      look.events

theorem IsOf.kind_eq (h : look.IsOf ref versions) : look.seen.kind = ref.kind :=
  congrArg ObjectRef.kind h.named

theorem IsOf.created (h : look.IsOf ref versions) (hkind : ref.kind ≠ .pki)
    (hcreates : look.Creates w) :
    ∃ path, w.endpoint = look.endpointAt path ∧
      look.seen.RemovedThrough path look.seen.toVaultObject.deletePath := by
  obtain ⟨_, _, _, _, -, hexec, hcreated, hw⟩ := hcreates
  exact Object.created_where_named (h.kind_eq ▸ hkind) hexec hcreated hw

theorem IsOf.cleared (h : look.IsOf ref versions) (hkind : ref.kind ≠ .pki)
    (hclears : look.Clears endpoint) : look.IsDeletion ∧ look.place = endpoint := by
  obtain ⟨session, path, answer, outcome, hmem, hanswer, rfl⟩ := hclears
  obtain ⟨before, after, hevents⟩ := List.append_of_mem hmem
  obtain ⟨_, rest, _, hexec⟩ := h.begun
  have hends := reconcile_ends hexec
  rw [hevents, List.append_assoc, List.cons_append] at hends
  obtain ⟨hdeleting, hguarded, _, _, _, hlogin, he, hanswer', hdelete⟩ :=
    hends.deletion (h.kind_eq ▸ hkind) rfl
  cases he
  obtain rfl := hanswer.unique hanswer'
  exact ⟨⟨hdeleting, hguarded, _, after, outcome, by rw [hevents, List.append_cons], hdelete⟩,
    (Vault.endpoint_request.trans hlogin.endpoint).symm⟩

theorem IsDeletion.clears (h : look.IsDeletion) (hkind : look.seen.kind ≠ .ldap) :
    look.Clears look.place := by
  obtain ⟨-, -, deletion, rest, outcome, hevents, hdelete⟩ := h
  cases hdelete.trace with
  | skipped => exact absurd (hdelete.skipped_iff.1 rfl) hkind
  | @answered login session _ _ hlogin answer hanswer =>
    refine ⟨session, _, answer, outcome, ?_, hanswer,
      Vault.endpoint_request.trans hlogin.endpoint⟩
    rw [hevents]
    exact List.mem_append_left _ (List.mem_append_right _ List.mem_cons_self)

/-- The finalizer is taken off by nobody but a deletion that succeeded. -/
theorem IsOf.isDeletion (h : look.IsOf ref versions) (hreleases : look.Releases) :
    look.IsDeletion := by
  obtain ⟨hdeleting, answer, hmem⟩ := hreleases
  obtain ⟨before, after, hevents⟩ := List.append_of_mem hmem
  obtain ⟨_, rest, _, hexec⟩ := h.begun
  have hends := reconcile_ends hexec
  rw [hevents, List.append_assoc, List.cons_append] at hends
  rcases patch_cases hends patch?_finalizersEvent with ⟨status, hpatch⟩ | ⟨l, hkept, hpatch⟩ |
    ⟨_, hguarded, outcome, hdelete⟩
  · have hstatus := congrArg (Json.get? · "status") hpatch
    cases hstatus
  · have hreleased := storedFinalizers_finalizersPatch .null
      (look.seen.metadata.finalizers.filter (· ≠ finalizer))
    rw [hpatch, storedFinalizers_finalizersPatch] at hreleased
    simp [hreleased] at hkept
  · exact ⟨hdeleting, hguarded, before, _, outcome, hevents, hdelete⟩

end Look

-- ---------------------------------------------------------------------------
-- A whole life
-- ---------------------------------------------------------------------------

/-- A look that takes the finalizer off removed what it saw declared. What a look made is where it
saw it declared, and is removed later if and only if a later deletion still sees it declared there. -/
theorem removed_iff_named (life : Life Edits ref looks versions current)
    (hldap : ref.kind ≠ .ldap) (hpki : ref.kind ≠ .pki) :
    (∀ look ∈ looks, look.Releases → look.Clears look.place) ∧
    ∀ later look earlier w, looks = later ++ look :: earlier → look.Creates w →
      (∃ path, w.endpoint = look.endpointAt path ∧
        look.seen.RemovedThrough path look.seen.toVaultObject.deletePath) ∧
      ((∃ deletion ∈ later, deletion.Clears look.place) ↔
        ∃ deletion ∈ later, deletion.IsDeletion ∧ deletion.place = look.place) := by
  have hclears {look : Look} (hmem : look ∈ looks) (hdeletion : look.IsDeletion) :
      look.Clears look.place :=
    hdeletion.clears ((life.isOf look hmem).kind_eq ▸ hldap)
  refine ⟨fun look hmem hreleases => hclears hmem ((life.isOf look hmem).isDeletion hreleases), ?_⟩
  rintro later look earlier w rfl hcreates
  have hlater {deletion : Look} (hmem : deletion ∈ later) : deletion ∈ later ++ look :: earlier :=
    List.mem_append_left _ hmem
  refine ⟨(life.isOf look (by simp)).created hpki hcreates, ?_, ?_⟩
  · rintro ⟨deletion, hmem, hcleared⟩
    exact ⟨deletion, hmem, (life.isOf deletion (hlater hmem)).cleared hpki hcleared⟩
  · rintro ⟨deletion, hmem, hdeletion, hplace⟩
    exact ⟨deletion, hmem, hplace ▸ hclears (hlater hmem) hdeletion⟩

-- ---------------------------------------------------------------------------
-- A policy that is renamed
-- ---------------------------------------------------------------------------

/-- Changes of the declaration, and the mark of an object that is to be deleted. -/
inductive EditsDeclaration : Json → Json → Prop
  | declared (spec : Json) :
    EditsDeclaration stored (stored.mergePatch (Json.record [("spec", spec)]))
  | deleted : EditsDeclaration stored (stored.mergePatch deletionPatch)

/-- A look that went on to its end, at what was stored and valid, and in which no call failed. -/
structure Look.Succeeds (ref : ObjectRef) (look : Look) : Prop where
  finished : ∃ table r, Exec (reconcile look.config look.seen table) look.events (some r)
  fresh : look.IsFresh ref
  valid : look.seen.IsValid
  works : Works look.events

/-- Something was read from Vault. -/
def finds : Event → Bool
  | .call (.vault (.read ..)) (.ok (some _)) => true
  | _ => false

theorem finds_of_read (h : Ends (Pass.read session path) es (.ok (some observed))) :
    ∃ e ∈ es, finds e := by
  obtain ⟨answer, rfl, hanswer⟩ := Pass.ends_read.1 h
  obtain rfl := ok_eq_mapError.1 hanswer
  exact ⟨_, List.mem_cons_self, rfl⟩

/-- A policy that was not found was made by the pass that wrote it. -/
theorem Look.creates_of_policy {look : Look} {p : Policy} (hseen : look.seen = .policy p)
    (h : Exec (reconcile look.config look.seen table) look.events r)
    (hw : w ∈ writes look.events) (hanswer : w.answer = .ok response)
    (hnone : ∀ e ∈ look.events, ¬ finds e) : look.Creates w := by
  have hkind : look.seen.kind ≠ .pki := by rw [hseen]; exact nofun
  obtain ⟨now, pass, rest, outcome, hevents, hsync, hpass, made, hcalled, hresult⟩ :=
    (reconcile_ends h).wrote hkind hw
  refine ⟨now, pass, rest, outcome, hevents, hsync, ?_, hpass⟩
  rw [hresult, hanswer]
  obtain ⟨login, looks, request, -, hrequests, rfl⟩ := hcalled
  cases hrequests with
  | create => rfl
  | update _ _ _ _ hread =>
    rw [hseen] at hread
    obtain ⟨e, he, hfinds⟩ := finds_of_read hread
    exact absurd hfinds (hnone e (by simp [hevents, he]))

/-- A look at the policy that goes as it should. -/
def isSuccess (vault : Memory.VaultServer) (stored : Json) : Bool :=
  (Object.ofJson? .policy stored).isSome && (lookAtReader vault stored).result.isSome &&
    (seenReader stored).toVaultObject.validate.isOk && Works (lookAtReader vault stored).events

theorem Life.succeeded (life : Life Edits readerRef looks versions (some stored))
    (hfields : ∃ fields, stored = .obj fields) (h : isSuccess vault stored)
    (href : (readerLook vault stored).seen.ref = readerRef) :
    (readerLook vault stored).Succeeds readerRef ∧ ∃ versions,
      Life Edits readerRef (readerLook vault stored :: looks) versions
        (some (readerAfter vault stored)) := by
  obtain ⟨fields, rfl⟩ := hfields
  simp only [isSuccess, Bool.and_eq_true, decide_eq_true_iff] at h
  obtain ⟨⟨⟨hseen, hresult⟩, hvalid⟩, hworks⟩ := h
  refine ⟨⟨?_, ⟨fields, rfl, ofJson?_seenReader hseen⟩, ?_, hworks⟩, life.looked vault hseen href⟩
  · obtain ⟨result, hr⟩ := Option.isSome_iff_exists.1 hresult
    have hexec : Exec (reconcile {} (seenReader (.obj fields)) (.new 1 10))
        (lookAtReader vault (.obj fields)).events (lookAtReader vault (.obj fields)).result :=
      Program.exec_run _ _ _
    exact ⟨_, result, hr ▸ hexec⟩
  · cases hvalidated : (seenReader (.obj fields)).toVaultObject.validate with
    | ok => exact hvalidated
    | error => rw [hvalidated] at hvalid; cases hvalid

def takesFinalizerOff (o : Object) : Event → Bool
  | .call (.cluster (.patchFinalizers ref finalizers)) _ =>
    ref = o.ref && finalizers = o.metadata.finalizers.filter (· ≠ finalizer)
  | _ => false

theorem Look.releases_of_takesFinalizerOff {look : Look} (hdeleting : look.seen.metadata.deleting)
    (h : ∃ e ∈ look.events, takesFinalizerOff look.seen e) : look.Releases := by
  obtain ⟨e, he, htakes⟩ := h
  unfold takesFinalizerOff at htakes
  split at htakes
  · obtain ⟨href, hfinalizers⟩ := Bool.and_eq_true_iff.1 htakes
    obtain rfl := of_decide_eq_true href
    obtain rfl := of_decide_eq_true hfinalizers
    exact ⟨hdeleting, _, he⟩
  · cases htakes

def renamedSpec : Json := Json.record [("name", .str "other")]

def firstLook : Look := readerLook {} (storedReader "path")

def renamedReader : Json :=
  (readerAfter {} (storedReader "path")).mergePatch (Json.record [("spec", renamedSpec)])

/-- Vault once the policy was written. -/
def onePolicy : Memory.VaultServer := (lookAtReader {} (storedReader "path")).state.vault

def renamedLook : Look := readerLook onePolicy renamedReader

def releasedReader : Json := (readerAfter onePolicy renamedReader).mergePatch deletionPatch

/-- Vault once the policy was written under its second name too. -/
def twoPolicies : Memory.VaultServer := (lookAtReader onePolicy renamedReader).state.vault

def releasingLook : Look := readerLook twoPolicies releasedReader

theorem looks_facts :
    (isSuccess {} (storedReader "path") ∧ isSuccess onePolicy renamedReader ∧
      isSuccess twoPolicies releasedReader) ∧
    (∀ look ∈ [firstLook, renamedLook, releasingLook], look.seen.ref = readerRef) ∧
    ((∃ w ∈ writes firstLook.events, w.answer.isOk) ∧ ∀ e ∈ firstLook.events, ¬ finds e) ∧
    ((∃ w ∈ writes renamedLook.events, w.answer.isOk) ∧ ∀ e ∈ renamedLook.events, ¬ finds e) ∧
    (releasingLook.seen.metadata.deleting ∧
      ∃ e ∈ releasingLook.events, takesFinalizerOff releasingLook.seen e) ∧
    (∀ look ∈ [releasingLook, renamedLook], look.place ≠ firstLook.place) ∧
    releasingLook.place = renamedLook.place := by
  decide +kernel

theorem exists_mergePatch_eq_obj (stored : Json) (key : String) (value : Json) :
    ∃ fields, stored.mergePatch (Json.record [(key, value)]) = .obj fields := by
  obtain ⟨_, hfields, -⟩ :=
    Json.exists_mergePatch_record (l := [(key, value)]) (by simp) stored
  exact ⟨_, hfields⟩

/-- The policy is written, renamed, written again, and deleted. -/
theorem life_renamed : ∃ versions current,
    Life EditsDeclaration readerRef [releasingLook, renamedLook, firstLook] versions current ∧
      ∀ look ∈ [releasingLook, renamedLook, firstLook], look.Succeeds readerRef := by
  obtain ⟨⟨hfirst, hrenamed, hreleasing⟩, href, -⟩ := looks_facts
  simp only [List.forall_mem_cons] at href ⊢
  have life : Life EditsDeclaration readerRef [] _ (some (storedReader "path")) := .start _
  obtain ⟨hfirst, _, life⟩ := life.succeeded ⟨_, rfl⟩ hfirst href.1
  have life := life.edit (.declared renamedSpec)
  obtain ⟨hrenamed, _, life⟩ :=
    life.succeeded (exists_mergePatch_eq_obj _ _ _) hrenamed href.2.1
  have life := life.edit .deleted
  obtain ⟨hreleasing, _, life⟩ :=
    life.succeeded (exists_mergePatch_eq_obj _ _ _) hreleasing href.2.2.1
  exact ⟨_, _, life, hreleasing, hrenamed, hfirst, fun _ hmem => absurd hmem List.not_mem_nil⟩

theorem seenReader_eq_policy (stored : Json) : ∃ p, seenReader stored = .policy p := by
  unfold seenReader Object.ofJson?
  cases Resource.ofJson? Policy.Spec.ofJson? Status.ofJson? stored <;> exact ⟨_, rfl⟩

theorem exists_creates (hwrites : ∃ w ∈ writes (readerLook vault stored).events, w.answer.isOk)
    (hnone : ∀ e ∈ (readerLook vault stored).events, ¬ finds e) :
    ∃ w, (readerLook vault stored).Creates w := by
  obtain ⟨w, hw, hok⟩ := hwrites
  obtain ⟨p, hseen⟩ := seenReader_eq_policy stored
  obtain ⟨_, hexec⟩ := readerLook_exec vault stored
  cases hanswer : w.answer with
  | ok response => exact ⟨w, Look.creates_of_policy hseen hexec hw hanswer hnone⟩
  | error => rw [hanswer] at hok; cases hok

/-- Even where all goes well and the finalizer is taken off, not all that was made is removed. -/
theorem left_behind :
    ¬ ∀ ref looks versions current, ref.kind ≠ .ldap → ref.kind ≠ .pki →
      Life EditsDeclaration ref looks versions current →
      (∀ look ∈ looks, look.Succeeds ref) →
      (∃ last earlier, looks = last :: earlier ∧ last.Releases) →
      ∀ later look earlier w, looks = later ++ look :: earlier → look.Creates w →
        ∃ deletion ∈ later, deletion.Clears look.place := by
  intro hclaim
  obtain ⟨versions, current, life, hsucceeds⟩ := life_renamed
  obtain ⟨-, -, ⟨hwrites, hnone⟩, -, ⟨hdeleting, htakes⟩, helsewhere, -⟩ := looks_facts
  obtain ⟨w, hcreates⟩ := exists_creates hwrites hnone
  obtain ⟨deletion, hmem, hclears⟩ := hclaim readerRef _ _ _ nofun nofun life hsucceeds
    ⟨_, _, rfl, Look.releases_of_takesFinalizerOff hdeleting htakes⟩
    [releasingLook, renamedLook] _ _ w rfl hcreates
  have hof := life.isOf deletion (List.mem_append_left [firstLook] hmem)
  exact helsewhere deletion hmem (hof.cleared nofun hclears).2

/-- What the policy was written to under its second name is removed. -/
theorem removed_iff_named_reader :
    readerRef.kind ≠ .ldap ∧ readerRef.kind ≠ .pki ∧
    ∃ looks versions current, Life EditsDeclaration readerRef looks versions current ∧
      ∃ last renamed first w, looks = [last] ++ renamed :: [first] ∧ last.Releases ∧
        last.Clears last.place ∧ renamed.Creates w ∧
        (∃ path, w.endpoint = renamed.endpointAt path ∧
          renamed.seen.RemovedThrough path renamed.seen.toVaultObject.deletePath) ∧
        ∃ deletion ∈ [last], deletion.Clears renamed.place := by
  obtain ⟨versions, current, life, -⟩ := life_renamed
  obtain ⟨-, -, -, ⟨hwrites, hnone⟩, ⟨hdeleting, htakes⟩, -, hplace⟩ := looks_facts
  have hreleases := Look.releases_of_takesFinalizerOff hdeleting htakes
  obtain ⟨w, hcreates⟩ := exists_creates hwrites hnone
  obtain ⟨hclears, hnamed⟩ := removed_iff_named life nofun nofun
  obtain ⟨hpath, hiff⟩ := hnamed [releasingLook] renamedLook [firstLook] w rfl hcreates
  have hof := life.isOf releasingLook List.mem_cons_self
  exact ⟨nofun, nofun, _, _, _, life, _, _, _, w, rfl, hreleases,
    hclears _ List.mem_cons_self hreleases, hcreates, hpath,
    hiff.2 ⟨_, List.mem_cons_self, hof.isDeletion hreleases, hplace⟩⟩

end Watch

end VaultOperator
