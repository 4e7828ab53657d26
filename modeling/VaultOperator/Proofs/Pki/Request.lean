import VaultOperator.Proofs.Pki.Companion
import VaultOperator.Proofs.Pki.Generation
import VaultOperator.Proofs.Pki.Signer

/-!
# The request that is signed

Whatever fails in between, an authority is only signed with the request that Vault answered the last
making of its key with (`signed_as_requested`). The request is handed on within a pass, and from one
pass to the next in the companion secret, which holds no other as long as the authority waits.
-/

namespace VaultOperator.Pki

open VaultOperator.Path (PkiOperation)

variable {settings : Engine.Settings} {p : Pki} {session : Vault.Session}

-- ---------------------------------------------------------------------------
-- The last key
-- ---------------------------------------------------------------------------

/-- The last of the writes that made a key was answered with `response`. -/
def LastMade (ws : List VaultWrite) (response : Option Payload) : Prop :=
  ∃ before w after, ws = before ++ w :: after ∧ IsGenerate w ∧ w.answer = .ok response ∧
    ∀ later ∈ after, IsGenerate later → ∀ other, later.answer ≠ .ok other

theorem LastMade.append (h : LastMade ws response) (hvs : ∀ w ∈ vs, ¬ IsGenerate w) :
    LastMade (ws ++ vs) response := by
  obtain ⟨before, w, after, rfl, hw, hanswer, hlast⟩ := h
  refine ⟨before, w, after ++ vs, by simp, hw, hanswer, fun later hmem hgenerate => ?_⟩
  rcases List.mem_append.1 hmem with hmem | hmem
  · exact hlast later hmem hgenerate
  · exact absurd hgenerate (hvs later hmem)

theorem lastMade_concat (hw : IsGenerate w) (hanswer : w.answer = .ok response) :
    LastMade (ws ++ [w]) response :=
  ⟨ws, w, [], rfl, hw, hanswer, by simp⟩

/-- The request to sign the last key that was made. -/
def IsLastRequest (ws : List VaultWrite) (csr : String) : Prop :=
  ∃ response, LastMade ws response ∧ (response.getD ∅).text? "csr" = some csr

theorem IsLastRequest.append (h : IsLastRequest ws csr) (hvs : ∀ w ∈ vs, ¬ IsGenerate w) :
    IsLastRequest (ws ++ vs) csr := by
  obtain ⟨response, hlast, hcsr⟩ := h
  exact ⟨response, hlast.append hvs, hcsr⟩

/-- A secret holds no other request than the one to sign the last key that was made. -/
def HoldsLastRequest (ws : List VaultWrite) (kept : Option SecretData) : Prop :=
  ∀ csr, storedCsr? kept = some csr → IsLastRequest ws csr

/-- After the writes `ws`, every write among `vs` that has an authority sign is for the request to
sign the last key that was made before it. -/
def SignsLast (ws vs : List VaultWrite) : Prop :=
  ∀ before w after, vs = before ++ w :: after → IsSignIntermediate w →
    ∃ csr, IsLastRequest (ws ++ before) csr ∧ w.body.get? "csr" = some (.str csr)

theorem signsLast_of_not_isSignIntermediate (h : ∀ w ∈ vs, ¬ IsSignIntermediate w) :
    SignsLast ws vs := by
  rintro before w after rfl hw
  exact absurd hw (h w (by simp))

theorem SignsLast.append (h : SignsLast ws us) (h' : SignsLast (ws ++ us) vs) :
    SignsLast ws (us ++ vs) := by
  intro before w after hsplit hw
  rcases append_eq_append_cons hsplit with ⟨rest, hus⟩ | ⟨between, rfl, hvs⟩
  · exact h before w rest hus hw
  · rw [← List.append_assoc]
    exact h' between w after hvs hw

-- ---------------------------------------------------------------------------
-- After the key
-- ---------------------------------------------------------------------------

theorem signIntermediate_mem_finishOps (h : PkiOperation.signIntermediate ∈ finishOps p s) :
    ¬ s.state.isSigned ∧ p.spec.type = .intermediate := by
  unfold finishOps signOps urlOps at h
  cases htype : p.spec.type <;> split_ifs at h <;> simp_all

theorem get?_signPayload (s : Spec) (csr : String) :
    (s.signPayload csr).get? "csr" = some (.str csr) := by
  let fields : List (String × Option Json) :=
    ("csr", some (.str csr)) :: s.subjectFields ++ [("use_csr_values", some (.bool false))]
  have hnodup : (fields.map (·.1)).Nodup := by
    simp [fields, Spec.subjectFields]
  exact Dict.get?_ofFields hnodup "csr"

theorem finish_not_isGenerate (h : EndsWith (finish settings p session fresh outcome) s es r t) :
    ∀ w ∈ writes es, ¬ IsGenerate w := by
  obtain ⟨⟨ops, hops, hmakes⟩, -⟩ := finish_ends h
  exact not_isGenerate_of_finishOps hops hmakes

/-- What follows on a key signs with the request that was handed over, or with the one that the
companion secret holds. -/
theorem finish_signsLast (h : EndsWith (finish settings p session fresh outcome) s es r t)
    (htends : Tends p.metadata.nsAny (exportName p) kept es left)
    (hfresh : ∀ csr, fresh = some csr → IsLastRequest ws csr)
    (hkept : ¬ s.state.isSigned → p.spec.type = .intermediate → HoldsLastRequest ws kept) :
    SignsLast ws (writes es) := by
  intro before w after hsplit hw
  have hmem : w ∈ writes es := by simp [hsplit]
  have hbefore : ∀ w ∈ before, ¬ IsGenerate w := fun w hw =>
    finish_not_isGenerate h w (by simp [hsplit, hw])
  obtain ⟨⟨ops, hops, hmakes⟩, -⟩ := finish_ends h
  obtain ⟨signerMount, hpath⟩ := hw
  obtain ⟨hunsigned, htype⟩ := signIntermediate_mem_finishOps (hops.subset (hmakes.mem hmem hpath))
  have hshown := (htends.unchanged (finish_leavesSecrets h)).2
  cases finish_signature h hmem ⟨signerMount, hpath⟩ with
  | signed signer authority session csr answer hsigner hcsr =>
    refine ⟨csr, .append ?_ hbefore, get?_signPayload _ _⟩
    -- The request was handed over, or it was looked up where nothing changed the secret before.
    rcases hcsr with hcsr | ⟨-, data, hget, hcsr⟩
    · exact hfresh csr hcsr
    · obtain rfl := hshown data (List.mem_append_left _ hget)
      exact hkept hunsigned htype csr hcsr

/-- As long as an authority waits the companion secret stays as it is. -/
theorem finish_holdsLastRequest
    (h : EndsWith (finish settings p session fresh outcome) s es r t)
    (htends : Tends p.metadata.nsAny (exportName p) kept es left)
    (hkept : ¬ s.state.isSigned → p.spec.type = .intermediate → HoldsLastRequest ws kept)
    (hgenerated : t.state.isGenerated) (hunsigned : ¬ t.state.isSigned) :
    HoldsLastRequest (ws ++ writes es) left := by
  obtain ⟨-, hfinished, -⟩ := finish_ends h
  obtain ⟨rfl, -⟩ := htends.unchanged (finish_leavesSecrets h)
  cases hfinished with
  | signed hsigned => exact absurd hsigned hunsigned
  | selfSigned => exact absurd rfl hunsigned
  | lost => cases hgenerated
  | waiting hsigned htype =>
    exact fun csr hcsr => (hkept hsigned htype csr hcsr).append (finish_not_isGenerate h)
  | installed => exact absurd rfl hunsigned

-- ---------------------------------------------------------------------------
-- One pass
-- ---------------------------------------------------------------------------

/-- Vault answers the making of a key with a text for the request to sign, or with none. -/
def AnswersText (ws : List VaultWrite) : Prop :=
  ∀ w ∈ ws, IsGenerate w → ∀ response, w.answer = .ok response →
    ∀ value, (response.getD ∅).get? "csr" = some value → ∃ csr, value = .str csr

/-- What a pass leaves in the companion secret of an authority that waits is no other request than
the one to sign the last key that was made. -/
def KeepsRequest (ws : List VaultWrite) (kept : Option SecretData) (s : CaProgress) : Prop :=
  s.state.isGenerated → ¬ s.state.isSigned → HoldsLastRequest ws kept

/-- Once the key of an intermediate authority is made, the companion secret holds its request. -/
theorem holdsLastRequest_of_stored (hkeep : PersistTrace p (response.getD ∅) es (.ok ()))
    (hcounts : ∀ e ∈ counts, e.isCount)
    (htends : Tends p.metadata.nsAny (exportName p) kept
      (generateEvent p session (.ok response) :: (es ++ counts)) left)
    (hlast : LastMade ws response)
    (htext : ∀ value, (response.getD ∅).get? "csr" = some value → ∃ csr, value = .str csr) :
    HoldsLastRequest ws left := by
  obtain ⟨middle, hes, hrest⟩ := tends_append.1 htends.2
  obtain rfl := hkeep.tends hes
  obtain ⟨rfl, -⟩ := hrest.unchanged (leavesSecrets_of_isCount hcounts)
  exact fun csr hcsr => ⟨response, hlast, text?_of_storedCsr? hcsr htext⟩

theorem proceed_signsLast (h : ProceedTrace settings p session es r t)
    (htends : Tends p.metadata.nsAny (exportName p) kept es left)
    (htexts : AnswersText (writes es)) (hkept : KeepsRequest ws kept (progress p)) :
    SignsLast ws (writes es) ∧ KeepsRequest (ws ++ writes es) left t := by
  cases h with
  | kept _ hgenerated hfinish =>
    have hkept (hunsigned : ¬ (progress p).state.isSigned) (_ : p.spec.type = .intermediate) :=
      hkept hgenerated hunsigned
    exact ⟨finish_signsLast hfinish htends nofun hkept,
      finish_holdsLastRequest hfinish htends hkept⟩
  | unmade hgenerated hgenerate =>
    refine ⟨signsLast_of_not_isSignIntermediate hgenerate.not_isSignIntermediate, ?_⟩
    cases hgenerate.generateEnd with
    | failed => exact fun h => absurd h hgenerated
  | made _ hgenerated hgenerate hfinish =>
    have hunsigned := hgenerate.not_isSignIntermediate
    cases hgenerate with
    | made response hkeep hnone hcounts =>
      have hwrites : writes (generateEvent p session (.ok response) :: _) = _ :=
        writes_generateEvent (silent_of_kept hkeep hnone hcounts).1
      -- `middle` is what the companion secret holds between the making of the key and the rest
      obtain ⟨middle, hmade, hrest⟩ := tends_append.1 htends
      rw [writes_append, hwrites] at htexts ⊢
      rw [hwrites] at hunsigned
      have hlast :
          LastMade (ws ++ [⟨session, generatePath p, p.spec.generatePayload, .ok response⟩])
            response := lastMade_concat ⟨_, _, _, rfl⟩ rfl
      have htext := htexts _ List.mem_cons_self ⟨_, _, _, rfl⟩ response rfl
      have hfresh : ∀ csr, (response.getD ∅).text? "csr" = some csr → IsLastRequest _ csr :=
        fun csr hcsr => ⟨response, hlast, hcsr⟩
      have hkept (_ : ¬ (reached p (madeState p)).state.isSigned)
          (htype : p.spec.type = .intermediate) : HoldsLastRequest _ middle :=
        holdsLastRequest_of_stored (hkeep (.inr htype)) hcounts hmade hlast htext
      have hsigns : SignsLast ws _ := signsLast_of_not_isSignIntermediate hunsigned
      refine ⟨hsigns.append (finish_signsLast hfinish hrest hfresh hkept), ?_⟩
      rw [← List.append_assoc]
      exact finish_holdsLastRequest hfinish hrest hkept

theorem run_signsLast (h : EndsWith (run settings p) (progress p) es r t)
    (htends : Tends p.metadata.nsAny (exportName p) kept es left)
    (htexts : AnswersText (writes es)) (hkept : KeepsRequest ws kept (progress p)) :
    SignsLast ws (writes es) ∧ KeepsRequest (ws ++ writes es) left t := by
  cases runEnd_of_ends h with
  | stopped e hsteps =>
    obtain ⟨rfl, -⟩ := htends.unchanged (leavesSecrets_of_isLoginStep hsteps)
    rw [writes_eq_nil hsteps, List.append_nil]
    exact ⟨signsLast_of_not_isSignIntermediate (by simp), hkept⟩
  | proceeded session _ hes hlogin hproceed =>
    subst hes
    obtain ⟨middle, hbefore, hrest⟩ := tends_append.1 htends
    obtain ⟨rfl, -⟩ := hbefore.unchanged (leavesSecrets_of_isLoginStep hlogin.steps)
    rw [writes_append, hlogin.silent, List.nil_append] at htexts ⊢
    exact proceed_signsLast (proceed_trace hproceed) hrest htexts hkept

-- ---------------------------------------------------------------------------
-- All passes
-- ---------------------------------------------------------------------------

theorem History.ends (h : History passes s) :
    ∀ pass ∈ passes, ∃ settings,
      EndsWith (run settings pass.seen) (progress pass.seen) pass.events pass.result pass.next := by
  induction h with
  | start => simp
  | pass _ _ hpass ih =>
    intro pass hmem
    rcases List.mem_append.1 hmem with hmem | hmem
    · exact ih pass hmem
    · obtain rfl := List.mem_singleton.1 hmem
      obtain ⟨⟨_, _, ⟨⟩, hends⟩, -⟩ := reconcile_ends hpass
      exact ⟨_, hends⟩

/-- The passes are over an authority of this namespace and name. -/
def AreOver (ns name : String) (passes : List PassRecord) : Prop :=
  ∀ pass ∈ passes, pass.seen.metadata.nsAny = ns ∧ pass.seen.metadata.nameAny = name

theorem AreOver.companion_eq (h : AreOver ns name passes) {pass : PassRecord}
    (hmem : pass ∈ passes) : companion pass.seen = (ns, name ++ "-ca-export") := by
  obtain ⟨rfl, rfl⟩ := h pass hmem
  rfl

def allEvents (passes : List PassRecord) : List Event :=
  passes.flatMap (·.events)

theorem History.signsLast (h : History passes s) (hover : AreOver ns name passes)
    (htends : Tends ns (name ++ "-ca-export") stored (allEvents passes) left)
    (htexts : AnswersText (writes (allEvents passes))) :
    SignsLast [] (writes (allEvents passes)) ∧
      KeepsRequest (writes (allEvents passes)) left s := by
  induction h generalizing left with
  | start => exact ⟨signsLast_of_not_isSignIntermediate (by simp [allEvents]), nofun⟩
  | @pass passes s es result next settings p earlier hseen hpass ih =>
    subst hseen
    obtain ⟨⟨_, _, ⟨⟩, hends⟩, -⟩ := reconcile_ends hpass
    have hevents : allEvents (passes ++ [⟨p, es, result, next⟩]) = allEvents passes ++ es := by
      simp [allEvents]
    rw [hevents] at htends htexts ⊢
    rw [writes_append] at htexts ⊢
    obtain ⟨middle, hbefore, hrest⟩ := tends_append.1 htends
    obtain ⟨rfl, rfl⟩ := hover ⟨p, es, result, next⟩ (by simp)
    obtain ⟨hsigns, hkept⟩ := ih (fun pass hmem => hover pass (by simp [hmem])) hbefore
      fun w hw => htexts w (by simp [hw])
    obtain ⟨hsigns', hkept'⟩ :=
      run_signsLast hends hrest (fun w hw => htexts w (by simp [hw])) hkept
    exact ⟨hsigns.append hsigns', hkept'⟩

/-- A pass that records a key which has to be kept made it and then created the companion secret,
with what has to be kept of the answer and nothing else. -/
def CreatesCompanion (ns name : String) (pass : PassRecord) : Prop :=
  ¬ (progress pass.seen).state.isGenerated → pass.next.state.isGenerated → NeedsSecret pass.seen →
    ∃ session response before between after secret,
      pass.events = before ++ generateEvent pass.seen session (.ok response) ::
        (between ++ .call (.cluster (.createSecret secret)) (.ok ()) :: after) ∧
      secret.ns.getD "" = ns ∧ secret.name = name ++ "-ca-export" ∧
      KeepsFields (response.getD ∅) secret.data

/-- A pass creates and deletes no other secret than the companion one, and that one only after it
made a key. -/
def ChangesCompanionOnly (ns name : String) (pass : PassRecord) : Prop :=
  ∀ before c answer after, pass.events = before ++ .call c answer :: after →
    ∀ place, c.changedSecret? = some place →
      place = (ns, name ++ "-ca-export") ∧
        ∃ session response, generateEvent pass.seen session (.ok response) ∈ before

/-- An authority is signed with the request that Vault answered the last making of its key with, and
its companion secret is all that passes create and delete. -/
theorem signed_as_requested (h : History passes s) (hover : AreOver ns name passes)
    (htends : Tends ns (name ++ "-ca-export") stored (allEvents passes) left)
    (htexts : AnswersText (writes (allEvents passes))) :
    (∀ before w after, writes (allEvents passes) = before ++ w :: after → IsSignIntermediate w →
      ∃ response csr, LastMade before response ∧ (response.getD ∅).text? "csr" = some csr ∧
        w.body.get? "csr" = some (.str csr)) ∧
    ∀ pass ∈ passes, CreatesCompanion ns name pass ∧ ChangesCompanionOnly ns name pass := by
  refine ⟨fun before w after hsplit hw => ?_, fun pass hmem => ⟨?_, ?_⟩⟩
  · obtain ⟨csr, ⟨response, hlast, hcsr⟩, hbody⟩ :=
      (h.signsLast hover htends htexts).1 before w after hsplit hw
    exact ⟨response, csr, hlast, hcsr, hbody⟩
  · intro hunmade hmade hneeds
    obtain ⟨settings, hends⟩ := h.ends pass hmem
    obtain ⟨session, response, before, between, after, hes⟩ :=
      run_creates hends hunmade hmade hneeds
    have hplace := hover.companion_eq hmem
    exact ⟨session, response, before, between, after, _, hes, congrArg Prod.fst hplace,
      congrArg Prod.snd hplace, keepsFields_exportData _⟩
  · intro before c answer after hsplit place hplace
    obtain ⟨settings, hends⟩ := h.ends pass hmem
    rw [← hover.companion_eq hmem]
    exact run_changesCompanion hends hsplit place hplace

-- ---------------------------------------------------------------------------
-- A leaf
-- ---------------------------------------------------------------------------

def csrData (csr : String) : SecretData :=
  Dict.ofList [("csr", Text.encode csr)]

/-- The world of the leaf with a companion secret that holds some request, and with or without an
authority to sign it. -/
def leafWorld (csr : String) (authorities : Dict Pki) : Memory.Backends Memory.Store :=
  { signingWorld signedRoot with
    cluster := { secrets := Dict.ofList [("pki/leaf-ca-export", csrData csr)], authorities } }

/-- The leaf once its key was made and nobody was there to sign it. -/
def waitingLeaf : Pki :=
  { leaf with
    status := some { progress := ⟨.awaitingSignature true, some .intermediate, some .exported⟩ } }

/-- A companion secret is in the way, and nobody is there to sign. -/
def makingRun :=
  (reconcile {} leaf).run Memory.Backends.storeWorld (leafWorld "stale" ∅)

/-- The root is there. -/
def resumingRun :=
  (reconcile {} waitingLeaf).run Memory.Backends.storeWorld
    (leafWorld "request" (Dict.ofList [("pki/root", signedRoot)]))

/-- The leaf once the root signed it. -/
def signedLeaf : Pki :=
  { leaf with status := some { progress := ⟨.signed true, some .intermediate, some .exported⟩ } }

theorem history_leaf :
    ∃ result result',
      History ([⟨leaf, makingRun.events, result, progress waitingLeaf⟩] ++
        [⟨waitingLeaf, resumingRun.events, result', progress signedLeaf⟩])
        (progress signedLeaf) := by
  have hfirst : makingRun.result.map (·.2) = some (progress waitingLeaf) := by decide +kernel
  have hsecond : resumingRun.result.map (·.2) = some (progress signedLeaf) := by decide +kernel
  have hstart : History [] (progress leaf) := .start
  obtain ⟨result, -, hmade⟩ := hstart.pass_of_run hfirst
  obtain ⟨result', -, hsigned⟩ := hmade.pass_of_run hsecond
  exact ⟨result, result', hsigned⟩

/-- There is no request to sign in the answer to a write, or it is a text. -/
def hasTextCsr (w : VaultWrite) : Bool :=
  match w.answer with
  | .ok response => ((response.getD ∅).get? "csr").all fun value => value.str?.isSome
  | .error _ => true

theorem answersText_of_hasTextCsr (h : ∀ w ∈ ws, hasTextCsr w) : AnswersText ws := by
  intro w hw _ response hanswer value hvalue
  have hw := h w hw
  simp only [hasTextCsr, hanswer, hvalue, Option.all_some] at hw
  cases value with
  | str csr => exact ⟨csr, rfl⟩
  | _ => cases hw

/-- The request that replaced another one in the companion secret is signed in a later pass. -/
theorem signed_as_requested_leaf :
    ∃ passes s left, History passes s ∧ AreOver "pki" "leaf" passes ∧
      Tends "pki" ("leaf" ++ "-ca-export") (some (csrData "stale")) (allEvents passes) left ∧
      AnswersText (writes (allEvents passes)) ∧
      (∃ w ∈ writes (allEvents passes), IsSignIntermediate w) ∧
      (∀ before w after, writes (allEvents passes) = before ++ w :: after → IsSignIntermediate w →
        ∃ response csr, LastMade before response ∧ (response.getD ∅).text? "csr" = some csr ∧
          w.body.get? "csr" = some (.str csr)) ∧
      ∀ pass ∈ passes,
        CreatesCompanion "pki" "leaf" pass ∧ ChangesCompanionOnly "pki" "leaf" pass := by
  obtain ⟨result, result', h⟩ := history_leaf
  have htends : Tends "pki" ("leaf" ++ "-ca-export") (some (csrData "stale"))
      (makingRun.events ++ (resumingRun.events ++ [])) (some (csrData "request")) := by
    decide +kernel
  have htexts : ∀ w ∈ writes (makingRun.events ++ (resumingRun.events ++ [])), hasTextCsr w := by
    decide +kernel
  have hsigns : ∃ w ∈ writes (makingRun.events ++ (resumingRun.events ++ [])), signsAtRoot w := by
    decide +kernel
  obtain ⟨w, hw, hsigns⟩ := hsigns
  have hover : AreOver "pki" "leaf" ([⟨leaf, makingRun.events, result, progress waitingLeaf⟩] ++
      [⟨waitingLeaf, resumingRun.events, result', progress signedLeaf⟩]) := by
    simp [AreOver, leaf, waitingLeaf, Metadata.nsAny, Metadata.nameAny]
  have htexts := answersText_of_hasTextCsr htexts
  exact ⟨_, _, _, h, hover, htends, htexts, ⟨w, hw, "pki", of_decide_eq_true hsigns⟩,
    signed_as_requested h hover htends htexts⟩

end VaultOperator.Pki
