import VaultOperator.Kubernetes.Client
import VaultOperator.Proofs.Json.Dict
import VaultOperator.Proofs.Pki.Recorded

/-!
# The companion secret of an authority

What is kept in it of the answer to the making of a key (`keepsFields_exportData`), what becomes of
a secret that nobody else changes (`Tends`), and that a pass only creates and deletes the companion
secret, and only once it made a key (`run_changedSecret`).
-/

namespace VaultOperator

-- ---------------------------------------------------------------------------
-- A secret that nobody else changes
-- ---------------------------------------------------------------------------

namespace Event

/-- What a secret holds after an event if it held `kept` before. A call that fails changes
nothing. -/
def leaves (ns name : String) (kept : Option SecretData) : Event → Option SecretData
  | .call (.cluster (.createSecret secret)) (.ok ()) =>
    if secret.ns.getD "" = ns ∧ secret.name = name then some secret.data else kept
  | .call (.cluster (.deleteSecret ns' name')) (.ok ()) =>
    if ns' = ns ∧ name' = name then none else kept
  | _ => kept

/-- A look at the secret shows what it holds. -/
def Shows (ns name : String) (kept : Option SecretData) : Event → Prop
  | .call (.cluster (.getSecret ns' name')) (.ok data) => ns' = ns ∧ name' = name → data = kept
  | _ => True

instance [DecidableEq ByteArray] : Decidable (Shows ns name kept e) := by
  unfold Shows
  split <;> infer_instance

theorem leaves_of_changedSecret? {e : Event}
    (h : ∀ c answer, e = .call c answer → c.changedSecret? = none) :
    e.leaves ns name kept = kept := by
  unfold leaves
  split
  · cases h _ _ rfl
  · cases h _ _ rfl
  · rfl

end Event

/-- The events create and delete the secret and look at it, and nobody else changes it: it holds
`kept` before them and `left` after. -/
def Tends (ns name : String) : Option SecretData → List Event → Option SecretData → Prop
  | kept, [], left => left = kept
  | kept, e :: es, left => e.Shows ns name kept ∧ Tends ns name (e.leaves ns name kept) es left

instance Tends.decidable [DecidableEq ByteArray] (ns name : String) :
    (kept : Option SecretData) → (es : List Event) → (left : Option SecretData) →
      Decidable (Tends ns name kept es left)
  | kept, [], left => inferInstanceAs (Decidable (left = kept))
  | kept, e :: es, left =>
    have := Tends.decidable ns name (e.leaves ns name kept) es left
    inferInstanceAs
      (Decidable (e.Shows ns name kept ∧ Tends ns name (e.leaves ns name kept) es left))

theorem tends_append {es fs : List Event} :
    Tends ns name kept (es ++ fs) left ↔
      ∃ middle, Tends ns name kept es middle ∧ Tends ns name middle fs left := by
  induction es generalizing kept with
  | nil => simp [Tends]
  | cons e es ih => simp [Tends, ih, and_assoc]

/-- No secret is created or deleted. -/
def LeavesSecrets (es : List Event) : Prop :=
  ∀ c answer, .call c answer ∈ es → c.changedSecret? = none

theorem leavesSecrets_of_isLoginStep {es : List Event} (h : ∀ e ∈ es, e.isLoginStep) :
    LeavesSecrets es := fun _ _ hmem =>
  Call.changedSecret?_eq_none_of_isLoginStep (h _ hmem)

theorem leavesSecrets_of_isCount {es : List Event} (h : ∀ e ∈ es, e.isCount) :
    LeavesSecrets es := fun _ _ hmem => by
  cases h _ hmem

/-- Where nothing changes a secret it holds the same throughout, and that is what is shown of it. -/
theorem Tends.unchanged (h : Tends ns name kept es left) (hes : LeavesSecrets es) :
    left = kept ∧
      ∀ data, .call (.cluster (.getSecret ns name)) (.ok data) ∈ es → data = kept := by
  induction es generalizing kept with
  | nil => exact ⟨h, by simp⟩
  | cons e es ih =>
    obtain ⟨hshows, hrest⟩ := h
    have hleaves : e.leaves ns name kept = kept :=
      Event.leaves_of_changedSecret? fun c answer he => hes c answer (he ▸ List.mem_cons_self)
    rw [hleaves] at hrest
    obtain ⟨hleft, hdata⟩ :=
      ih hrest fun c answer hmem => hes c answer (List.mem_cons_of_mem _ hmem)
    refine ⟨hleft, fun data hmem => ?_⟩
    rcases List.mem_cons.1 hmem with rfl | hmem
    · exact hshows ⟨rfl, rfl⟩
    · exact hdata data hmem

/-- The cluster tells of a secret that is there already by the place it was to be created at. -/
theorem Kubernetes.eq_of_created_alreadyExists {secret : Secret}
    (h : created secret reply = .error (.alreadyExists kind ns name)) :
    ns = secret.ns.getD "" ∧ name = secret.name := by
  unfold created at h
  split at h
  · cases h
  · split at h
    · cases h
      exact ⟨rfl, rfl⟩
    · cases h

namespace Pki

open VaultOperator.Path (PkiOperation)

variable {settings : Engine.Settings} {p : Pki} {session : Vault.Session}

-- ---------------------------------------------------------------------------
-- What is kept of an answer
-- ---------------------------------------------------------------------------

/-- The text that a value of an answer is kept as: a text that is not empty as it is, and a number
as it is written. -/
inductive KeptAs : Json → String → Prop
  | text (h : s ≠ "") : KeptAs (.str s) s
  | int (i : Int) : KeptAs (.int i) (toString i)
  | float (x : Double) : KeptAs (.float x) x.text

theorem exportText?_eq_some : exportText? value = some text ↔ KeptAs value text := by
  constructor
  · intro h
    cases value with
    | str s =>
      obtain ⟨hs, hsome⟩ := Option.ite_none_left_eq_some.1 h
      cases hsome
      exact .text (by simpa using hs)
    | int i => cases h; exact .int i
    | float x => cases h; exact .float x
    | _ => cases h
  · rintro (hs | i | x)
    · simp [exportText?, hs]
    · rfl
    · rfl

/-- The data are the texts and numbers under the fields of an answer that are kept. -/
def KeepsFields (response : Payload) (data : SecretData) : Prop :=
  ∀ field bytes, data.get? field = some bytes ↔
    field ∈ exportFields ∧ ∃ value text, response.get? field = some value ∧ KeptAs value text ∧
      bytes = Text.encode text

theorem get?_exportData (response : Payload) (field : String) :
    (exportData response).get? field =
      if field ∈ exportFields then
        ((response.get? field).bind exportText?).map Text.encode
      else none := by
  have hdata : exportData response =
      Dict.ofList ((exportFields.map fun field =>
        (field, ((response.get? field).bind exportText?).map Text.encode)).filterMap fun e =>
          e.2.map (e.1, ·)) := by
    rw [exportData, List.filterMap_map]
    simp only [Function.comp_def, Option.map_map]
  have hkeys : ((exportFields.map fun field =>
      (field, ((response.get? field).bind exportText?).map Text.encode)).map (·.1)).Nodup := by
    rw [List.map_map]
    simp only [Function.comp_def, List.map_id']
    decide
  rw [hdata, Dict.get?_ofList_filterMap hkeys, Dict.lookup_map]
  split <;> simp

theorem keepsFields_exportData (response : Payload) :
    KeepsFields response (exportData response) := by
  intro field bytes
  rw [get?_exportData]
  constructor
  · intro h
    obtain ⟨hfield, h⟩ := Option.ite_none_right_eq_some.1 h
    obtain ⟨text, htext, rfl⟩ := Option.map_eq_some_iff.1 h
    obtain ⟨value, hvalue, htext⟩ := Option.bind_eq_some_iff.1 htext
    exact ⟨hfield, value, text, hvalue, exportText?_eq_some.1 htext, rfl⟩
  · rintro ⟨hfield, value, text, hvalue, hkept, rfl⟩
    simp [hfield, hvalue, exportText?_eq_some.2 hkept]

/-- The request to sign that is found in the companion secret is the one of the answer. -/
theorem text?_of_storedCsr? {response : Payload}
    (h : storedCsr? (some (exportData response)) = some csr)
    (htext : ∀ value, response.get? "csr" = some value → ∃ csr, value = .str csr) :
    response.text? "csr" = some csr := by
  obtain ⟨bytes, hbytes, hcsr⟩ := Option.bind_eq_some_iff.1 h
  obtain ⟨-, value, text, hvalue, hkept, rfl⟩ :=
    (keepsFields_exportData response "csr" bytes).1 hbytes
  obtain ⟨s, rfl⟩ := htext value hvalue
  rw [Text.decode?_encode] at hcsr
  cases hcsr
  cases hkept
  exact Dict.text?_eq_some_iff.2 hvalue

-- ---------------------------------------------------------------------------
-- What a pass changes
-- ---------------------------------------------------------------------------

/-- The namespace and the name of the companion secret. -/
def companion (p : Pki) : String × String :=
  (p.metadata.nsAny, exportName p)

/-- The secret that is in the way of the companion secret is the one of an earlier answer. -/
theorem companion_of_alreadyExists
    (h : Kubernetes.created (exportSecret p response) reply =
      .error (.alreadyExists kind ns name)) : (ns, name) = companion p := by
  obtain ⟨rfl, rfl⟩ := Kubernetes.eq_of_created_alreadyExists h
  rfl

/-- Keeps an answer as a pass does, but deletes the secret that the cluster says is in the way. -/
def persistAtNamed (p : Pki) (response : Payload) : Pass Unit := do
  let secret := exportSecret p response
  let create := Program.cluster (.createSecret secret)
  match ← ExceptT.lift create with
  | .ok () => pure ()
  | .error (.alreadyExists _ ns name) =>
    Pass.attempt .store (.cluster (.deleteSecret ns name))
    Pass.attempt .store create
  | .error e => throw (.store e)

/-- The secret that is in the way is an earlier companion secret: to delete that one is to delete
the one that the cluster names. -/
theorem ends_persistAtNamed_iff
    (h : ∀ answer, createEvent p response answer ∈ es →
      ∃ reply, answer = Kubernetes.created (exportSecret p response) reply) :
    Ends (persistAtNamed p response) es r ↔ Ends (persistArtifacts p response) es r := by
  unfold persistAtNamed persistArtifacts
  refine ends_liftCreate_bind.trans (.trans ?_ ends_liftCreate_bind.symm)
  refine exists_congr fun answer => exists_congr fun rest => and_congr_right fun hes => ?_
  obtain ⟨reply, hanswer⟩ := h answer (hes ▸ List.mem_cons_self)
  cases answer with
  | ok => rfl
  | error e =>
    cases e with
    | alreadyExists kind ns name =>
      obtain ⟨rfl, rfl⟩ := Prod.mk.inj (companion_of_alreadyExists hanswer.symm)
      rfl
    | _ => rfl

theorem PersistTrace.changedSecret? (h : PersistTrace p response es r) :
    ∀ c answer, .call c answer ∈ es → c.changedSecret? = some (companion p) := by
  have hcreate {answer c answer'} (h : .call c answer' = createEvent p response answer) :
      c.changedSecret? = some (companion p) := by
    cases h
    rfl
  have hdelete {answer c answer'} (h : .call c answer' = deleteEvent p answer) :
      c.changedSecret? = some (companion p) := by
    cases h
    rfl
  intro c answer hmem
  cases h with
  | created | refused => exact hcreate (List.mem_singleton.1 hmem)
  | stuck =>
    simp only [List.mem_cons, List.not_mem_nil, or_false] at hmem
    exact hmem.elim hcreate hdelete
  | replaced =>
    simp only [List.mem_cons, List.not_mem_nil, or_false] at hmem
    exact hmem.elim hcreate fun h => h.elim hdelete hcreate

/-- Once it is stored, the companion secret holds what is kept of the answer, whatever it held
before. -/
theorem PersistTrace.tends (h : PersistTrace p response es (.ok ()))
    (htends : Tends p.metadata.nsAny (exportName p) kept es left) :
    left = some (exportData response) := by
  have hleaves (kept : Option SecretData) :
      (createEvent p response (.ok ())).leaves p.metadata.nsAny (exportName p) kept =
        some (exportData response) :=
    if_pos ⟨rfl, rfl⟩
  generalize hr : Except.ok () = r at h
  cases h with
  | created => exact htends.2.trans (hleaves kept)
  | refused | stuck => cases hr
  | replaced kind ns name answer =>
    obtain rfl := ok_eq_mapError.1 hr
    exact htends.2.2.2.trans (hleaves _)

/-- What follows on the making of a key leaves the secrets to others. -/
theorem finish_leavesSecrets (h : EndsWith (finish settings p session fresh outcome) s es r t) :
    LeavesSecrets es := fun c answer hmem =>
  ((concludesWith_finish s es _ h).2 c answer hmem).2

/-- A call that changes a secret is about the companion secret, and a key was made before it. -/
def ChangesCompanion (p : Pki) (before : List Event) (c : Call) : Prop :=
  ∀ place, c.changedSecret? = some place →
    place = companion p ∧
      ∃ session response, generateEvent p session (.ok response) ∈ before

theorem changesCompanion_of_making
    (hrest : ∀ c answer, .call c answer ∈ rest →
      c.changedSecret? = none ∨ c.changedSecret? = some (companion p))
    (hes : generateEvent p session (.ok response) :: rest = before ++ .call c answer :: after) :
    ChangesCompanion p before c := by
  intro place hplace
  cases before with
  | nil =>
    obtain ⟨he, -⟩ := List.cons.inj hes
    cases he
    cases hplace
  | cons e before =>
    obtain ⟨rfl, rfl⟩ := List.cons.inj hes
    refine ⟨?_, session, response, List.mem_cons_self⟩
    rcases hrest c answer (by simp) with h | h
    · rw [h] at hplace
      cases hplace
    · exact Option.some.inj (hplace.symm.trans h)

theorem GenerateTrace.changesCompanion (h : GenerateTrace p session s es r t)
    (hes : es = before ++ .call c answer :: after) : ChangesCompanion p before c := by
  cases h with
  | refused cause =>
    intro place hplace
    have hmem : Event.call c answer ∈ [generateEvent p session (.error cause)] := by simp [hes]
    cases List.mem_singleton.1 hmem
    cases hplace
  | unkept response hneeds hkeep =>
    exact changesCompanion_of_making
      (fun c answer hmem => .inr (hkeep.changedSecret? c answer hmem)) hes
  | made response hkeep hnone hcounts =>
    refine changesCompanion_of_making (fun c answer hmem => ?_) hes
    rcases List.mem_append.1 hmem with hmem | hmem
    · by_cases hneeds : NeedsSecret p
      · exact .inr ((hkeep hneeds).changedSecret? c answer hmem)
      · rw [hnone hneeds] at hmem
        cases hmem
    · exact .inl (leavesSecrets_of_isCount hcounts c answer hmem)

theorem ChangesCompanion.append_left (h : ChangesCompanion p before c) :
    ChangesCompanion p (es ++ before) c := by
  intro place hplace
  obtain ⟨hcompanion, session, response, hmem⟩ := h place hplace
  exact ⟨hcompanion, session, response, List.mem_append_right _ hmem⟩

theorem changesCompanion_of_leavesSecrets (h : LeavesSecrets (before ++ .call c answer :: after)) :
    ChangesCompanion p before c := by
  intro place hplace
  rw [h c answer (List.mem_append_right _ List.mem_cons_self)] at hplace
  cases hplace

/-- A pass creates and deletes no other secret than the companion one, and that one only once it
made a key. -/
theorem run_changesCompanion (h : EndsWith (run settings p) (progress p) es r t)
    (hes : es = before ++ .call c answer :: after) : ChangesCompanion p before c := by
  cases runEnd_of_ends h with
  | stopped e hsteps =>
    subst hes
    exact changesCompanion_of_leavesSecrets (leavesSecrets_of_isLoginStep hsteps)
  | proceeded session _ hlogins hlogin hproceed =>
    rcases append_eq_append_cons (hlogins.symm.trans hes) with ⟨_, rfl⟩ | ⟨_, rfl, rfl⟩
    · exact changesCompanion_of_leavesSecrets (leavesSecrets_of_isLoginStep hlogin.steps)
    · refine .append_left ?_
      generalize hrest : _ ++ Event.call c answer :: after = rest at hproceed
      cases proceed_trace hproceed with
      | kept _ _ hfinish =>
        subst hrest
        exact changesCompanion_of_leavesSecrets (finish_leavesSecrets hfinish)
      | unmade _ hgenerate => exact hgenerate.changesCompanion hrest.symm
      | made _ _ hgenerate hfinish =>
        rcases append_eq_append_cons hrest.symm with ⟨_, rfl⟩ | ⟨_, rfl, rfl⟩
        · exact hgenerate.changesCompanion rfl
        · exact .append_left (changesCompanion_of_leavesSecrets (finish_leavesSecrets hfinish))

/-- What a creation of the companion secret that succeeded last was preceded by. -/
theorem PersistTrace.created_last (h : PersistTrace p response es (.ok ())) :
    ∃ between, es = between ++ [createEvent p response (.ok ())] := by
  generalize hr : Except.ok () = r at h
  cases h with
  | created => exact ⟨[], rfl⟩
  | refused | stuck => cases hr
  | replaced kind ns name answer =>
    obtain rfl := ok_eq_mapError.1 hr
    exact ⟨[_, _], rfl⟩

/-- Where there is a key after a pass and there was none before, the pass made it and then created
the companion secret, where one is needed. -/
theorem run_creates (h : EndsWith (run settings p) (progress p) es r t)
    (hunmade : ¬ (progress p).state.isGenerated) (hmade : t.state.isGenerated)
    (hneeds : NeedsSecret p) :
    ∃ session response before between after,
      es = before ++ generateEvent p session (.ok response) ::
        (between ++ createEvent p (response.getD ∅) (.ok ()) :: after) := by
  cases runEnd_of_ends h with
  | stopped => exact absurd hmade hunmade
  | @proceeded login rest _ _ session _ hlogins hlogin hproceed =>
    subst hlogins
    cases proceed_trace hproceed with
    | kept _ hgenerated => exact absurd hgenerated hunmade
    | unmade _ hgenerate =>
      cases hgenerate.generateEnd with
      | failed => exact absurd hmade hunmade
    | @made gs csr s fs r t outcome _ hgenerate =>
      cases hgenerate with
      | @made es counts response hkeep =>
        obtain ⟨between, rfl⟩ := (hkeep hneeds).created_last
        refine ⟨session, response, login, between, counts ++ fs, ?_⟩
        simp only [List.append_assoc, List.cons_append, List.nil_append]

end Pki

end VaultOperator
