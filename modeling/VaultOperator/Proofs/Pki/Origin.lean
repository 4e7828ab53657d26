import VaultOperator.Proofs.Pki.Companion
import VaultOperator.Proofs.Pki.Generation

/-!
# Where an authority comes from

An authority that is recorded was made by one pass, and no pass after that made another
(`History.origin`). What is recorded of it is what that pass declared and was answered: whether its
key is exported (`exported_as_declared`), and which mount it is at (`ready_where_made`).
-/

namespace VaultOperator.Pki

open VaultOperator.Path (PkiOperation)

variable {settings : Engine.Settings} {p : Pki}

/-- The pass that made what is recorded of an authority. It is followed by none that made another,
and one of them installed the certificate of an intermediate authority that is signed. -/
structure Origin (passes : List PassRecord) (s : CaProgress) (before : List PassRecord)
    (maker : PassRecord) (after : List PassRecord) : Prop where
  passes_eq : passes = before ++ maker :: after
  made : Made maker.seen maker.events
  type : s.observedType = some maker.seen.spec.type
  keyMode : s.observedKeyMode = some maker.seen.spec.keyMode
  last : ∀ pass ∈ after, ∀ w ∈ writes pass.events, ¬ IsGenerate w
  installed : s.state.isSigned → maker.seen.spec.type = .intermediate →
    ∃ pass ∈ maker :: after, Installed pass.seen pass.events

theorem Finished.observed {lost installed : Prop} (h : Finished p lost installed s t) :
    t.observedType = s.observedType ∧ t.observedKeyMode = s.observedKeyMode := by
  cases h <;> exact ⟨rfl, rfl⟩

/-- The certificate of an intermediate authority that a pass got signed was installed in it. -/
theorem Finished.of_isSigned {lost installed : Prop} (h : Finished p lost installed s t)
    (ht : t.state.isSigned) (hs : ¬ s.state.isSigned) (htype : p.spec.type = .intermediate) :
    installed := by
  cases h with
  | signed hsigned => exact absurd hsigned hs
  | selfSigned _ hroot =>
    rw [htype] at hroot
    cases hroot
  | lost => cases ht
  | waiting => cases ht
  | installed _ _ _ hinstalled => exact hinstalled

/-- A pass over an authority that is there leaves its origin as it is. -/
theorem Origin.kept (h : Origin passes (progress p) before maker after)
    (hgenerated : (progress p).state.isGenerated) (hproceeds : Proceeds p es result next) :
    Origin (passes ++ [⟨p, es, result, next⟩]) next before maker
      (after ++ [⟨p, es, result, next⟩]) := by
  obtain ⟨⟨ops, hops, hmakes⟩, hrecords, -⟩ := hproceeds
  have hsame : next.observedType = (progress p).observedType ∧
      next.observedKeyMode = (progress p).observedKeyMode := by
    cases hrecords with
    | unbegun => exact ⟨rfl, rfl⟩
    | begun _ _ hnext =>
      rw [keyed, if_pos hgenerated] at hnext
      exact hnext.observed
  refine ⟨?_, h.made, hsame.1.trans h.type, hsame.2.trans h.keyMode, ?_, ?_⟩
  · rw [h.passes_eq, List.append_assoc, List.cons_append]
  · intro pass hmem
    rcases List.mem_append.1 hmem with hmem | hmem
    · exact h.last pass hmem
    · obtain rfl := List.mem_singleton.1 hmem
      exact not_isGenerate_of_makes hgenerated hops hmakes
  · intro hsigned htype
    rw [← List.cons_append]
    by_cases hbefore : (progress p).state.isSigned
    · obtain ⟨pass, hmem, hinstalled⟩ := h.installed hbefore htype
      exact ⟨pass, List.mem_append_left _ hmem, hinstalled⟩
    -- This pass got it signed. A pass that begins declares the type that is recorded, the maker's.
    · cases hrecords with
      | unbegun => exact absurd hsigned hbefore
      | begun hbegun _ hnext =>
        rw [keyed, if_pos hgenerated] at hnext
        have hdeclared := (validate_ok hbegun.1).1 _ h.type
        exact ⟨_, List.mem_append_right _ (List.mem_singleton_self _),
          hnext.of_isSigned hsigned hbefore (hdeclared.symm.trans htype)⟩

/-- A pass that leaves an authority where there was none is its origin. -/
theorem origin_of_made (hunmade : ¬ (progress p).state.isGenerated)
    (hgenerated : next.state.isGenerated) (hproceeds : Proceeds p es result next) :
    Origin (passes ++ [⟨p, es, result, next⟩]) next passes ⟨p, es, result, next⟩ [] := by
  cases hproceeds.records with
  | unbegun => exact absurd hgenerated hunmade
  | begun hbegun _ hnext =>
    rw [keyed, if_neg hunmade] at hnext
    have hmade : Made p es := hbegun.2.2.resolve_left hunmade
    have hunsigned : ¬ (reached p (madeState p)).state.isSigned := by simp [reached, madeState]
    refine ⟨rfl, hmade, hnext.observed.1, hnext.observed.2, by simp, fun hsigned htype => ?_⟩
    exact ⟨_, List.mem_cons_self, hnext.of_isSigned hsigned hunsigned htype⟩

/-- Every authority that is recorded has its origin in the passes so far. -/
theorem History.origin (h : History passes s) (hgenerated : s.state.isGenerated) :
    ∃ before maker after, Origin passes s before maker after := by
  induction h with
  | start => cases hgenerated
  | @pass passes s es result next settings p earlier hseen hpass ih =>
    subst hseen
    obtain ⟨⟨_, _, ⟨⟩, hends⟩, -⟩ := reconcile_ends hpass
    have hproceeds := run_ends hends
    -- An authority that was lost has none until it is made again.
    by_cases hbefore : (progress p).state.isGenerated
    · obtain ⟨before, maker, after, horigin⟩ := ih hbefore
      exact ⟨before, maker, _, horigin.kept hbefore hproceeds⟩
    · exact ⟨passes, _, [], origin_of_made hbefore hgenerated hproceeds⟩

/-- The last pass of a history starts from what the passes before left. -/
theorem History.last {pass : PassRecord} (h : History (passes ++ [pass]) s) :
    History passes (progress pass.seen) ∧ s = pass.next ∧
      ∃ settings, EndsWith (run settings pass.seen) (progress pass.seen) pass.events pass.result
        pass.next := by
  generalize hall : passes ++ [pass] = all at h
  cases h with
  | start => simp at hall
  | @pass _ _ _ _ _ settings p earlier hseen hpass =>
    obtain ⟨rfl, hpass'⟩ := List.append_inj' hall rfl
    obtain rfl := (List.cons.inj hpass').1
    obtain ⟨⟨_, _, ⟨⟩, hends⟩, -⟩ := reconcile_ends hpass
    exact ⟨hseen ▸ earlier, rfl, settings, hends⟩

-- ---------------------------------------------------------------------------
-- Whether the key is exported
-- ---------------------------------------------------------------------------

/-- There is a private key in a secret that is not empty. -/
def HoldsPrivateKey (secret : Secret) : Prop :=
  ∃ bytes, secret.data.get? "private_key" = some bytes ∧ bytes.size ≠ 0

/-- There is a private key in an answer that is not kept as an empty text. -/
def HandsOutPrivateKey (response : Payload) : Prop :=
  ∃ value text, response.get? "private_key" = some value ∧ KeptAs value text ∧ text ≠ ""

theorem holdsPrivateKey_iff (response : Payload) :
    HoldsPrivateKey (exportSecret p response) ↔ HandsOutPrivateKey response := by
  have hkeeps := keepsFields_exportData response "private_key"
  have hsize (text : String) : (Text.encode text).size ≠ 0 ↔ text ≠ "" := by
    simp [Text.encode]
  constructor
  · rintro ⟨bytes, hget, hbytes⟩
    obtain ⟨-, value, text, hvalue, hkept, rfl⟩ := (hkeeps bytes).1 hget
    exact ⟨value, text, hvalue, hkept, (hsize text).1 hbytes⟩
  · rintro ⟨value, text, hvalue, hkept, htext⟩
    have hfield : "private_key" ∈ exportFields := by simp [exportFields]
    exact ⟨_, (hkeeps _).2 ⟨hfield, value, text, hvalue, hkept, rfl⟩, (hsize text).2 htext⟩

/-- A key that is recorded as exported was made by a write that asks for its private half, by the
last pass that made any. The companion secret of the answer was created in that pass, and the
private half is in it if and only if Vault handed it out. -/
theorem exported_as_answered (h : History passes s) (hexported : s.state.isExported) :
    ∃ before maker after w response,
      passes = before ++ maker :: after ∧
      (∀ pass ∈ after, ∀ w ∈ writes pass.events, ¬ IsGenerate w) ∧
      w ∈ writes maker.events ∧
      w.path = (PkiOperation.generate maker.seen.spec.type .exported).path (mount maker.seen) ∧
      w.answer = .ok response ∧
      .call (.cluster (.createSecret (exportSecret maker.seen (response.getD ∅)))) (.ok ()) ∈
        maker.events ∧
      (HoldsPrivateKey (exportSecret maker.seen (response.getD ∅)) ↔
        HandsOutPrivateKey (response.getD ∅)) := by
  have hgenerated : s.state.isGenerated := by
    cases hstate : s.state <;> simp_all [CaState.isExported, CaState.isGenerated]
  obtain ⟨before, maker, after, horigin⟩ := h.origin hgenerated
  obtain ⟨type, mode, -, hmode, hexports⟩ := h.invariant.consistent.observed hgenerated
  have hmode : maker.seen.spec.keyMode = .exported := by
    rw [horigin.keyMode] at hmode
    exact (Option.some.inj hmode).trans (hexports.1 hexported)
  obtain ⟨w, hw, hpath, response, hanswer, hstored⟩ := horigin.made
  rw [generatePath, hmode] at hpath
  exact ⟨before, maker, after, w, response, horigin.passes_eq, horigin.last, hw, hpath, hanswer,
    hstored (.inl hmode), holdsPrivateKey_iff _⟩

def exportedRoot : Pki :=
  { root with spec := { root.spec with keyMode := .exported } }

/-- A world in which Vault answers the making of an exported root. -/
def exportWorld (response : Payload) : Memory.Backends Memory.Store :=
  { vault := { responses := Dict.ofList [("pki/root/generate/exported", response)] }
    cluster := {}
    clock := ⟨0, 0⟩ }

/-- A root is made, and Vault hands out its key. -/
theorem exported_as_answered_root :
    ∃ passes s, History passes s ∧ s.state.isExported ∧
      ∃ before maker after w response,
        passes = before ++ maker :: after ∧
        (∀ pass ∈ after, ∀ w ∈ writes pass.events, ¬ IsGenerate w) ∧
        w ∈ writes maker.events ∧
        w.path = (PkiOperation.generate maker.seen.spec.type .exported).path (mount maker.seen) ∧
        w.answer = .ok response ∧
        .call (.cluster (.createSecret (exportSecret maker.seen (response.getD ∅)))) (.ok ()) ∈
          maker.events ∧
        (HoldsPrivateKey (exportSecret maker.seen (response.getD ∅)) ↔
          HandsOutPrivateKey (response.getD ∅)) := by
  let b := exportWorld (Dict.ofList [("private_key", .str "key")])
  have hrun : ((reconcile {} exportedRoot).run Memory.Backends.storeWorld b).result.map (·.2) =
      some ⟨.signed true, some .root, some .exported⟩ := by decide +kernel
  obtain ⟨passes, h⟩ := history_of_run rfl hrun
  exact ⟨passes, _, h, rfl, exported_as_answered h rfl⟩

/-- The private key in a secret that is created. -/
def createdKey? : Event → Option ByteArray
  | .call (.cluster (.createSecret secret)) _ => secret.data.get? "private_key"
  | _ => none

/-- A root is recorded as exported though Vault answered nothing, and its key is in no secret. -/
theorem exported_without_key :
    ¬ ∀ passes s, History passes s → s.state.isExported →
      ∃ pass ∈ passes, ∃ secret, .call (.cluster (.createSecret secret)) (.ok ()) ∈ pass.events ∧
        HoldsPrivateKey secret := by
  intro hclaim
  let run := (reconcile {} exportedRoot).run Memory.Backends.storeWorld keyWorld
  have hrun : run.result.map (·.2) = some ⟨.signed true, some .root, some .exported⟩ := by
    decide +kernel
  have hkeyless : ∀ e ∈ run.events, createdKey? e = none := by decide +kernel
  have hstart : History [] (progress exportedRoot) := .start
  obtain ⟨result, -, h⟩ := hstart.pass_of_run hrun
  obtain ⟨pass, hpass, secret, hcreated, bytes, hbytes, -⟩ := hclaim _ _ h rfl
  obtain rfl := List.mem_singleton.1 hpass
  have hnone := hkeyless _ hcreated
  rw [createdKey?, hbytes] at hnone
  cases hnone

-- ---------------------------------------------------------------------------
-- Where an authority is ready
-- ---------------------------------------------------------------------------

/-- A key was made at a mount. -/
def GeneratedAt (mount : String) (type : CaType) (mode : KeyMode) (es : List Event) : Prop :=
  ∃ w ∈ writes es, w.path = (PkiOperation.generate type mode).path mount ∧
    ∃ response, w.answer = .ok response

/-- A pass that succeeds records what it declares. -/
theorem observed_of_ok (hs : (progress p).Consistent)
    (h : EndsWith (run settings p) (progress p) es (.ok outcome) t) :
    t.observedType = some p.spec.type ∧ t.observedKeyMode = some p.spec.keyMode := by
  obtain ⟨-, hrecords, hok⟩ := run_ends h
  have hgenerated : t.state.isGenerated := CaState.isGenerated_of_isSigned (hok outcome rfl)
  have hvalid : validate p = .ok () := by
    generalize hr : Except.ok outcome = r at h
    cases runEnd_of_ends h with
    | stopped => cases hr
    | proceeded _ hvalid => exact hvalid
  obtain ⟨hkeyed, -⟩ := keyed_eq_reached hs hvalid
  cases hrecords with
  | unbegun =>
    rw [keyed, if_pos hgenerated] at hkeyed
    rw [hkeyed]
    exact ⟨rfl, rfl⟩
  | begun _ _ hnext =>
    rw [hnext.observed.1, hnext.observed.2, hkeyed]
    exact ⟨rfl, rfl⟩

/-- Where a pass succeeds, the last key that was made is of the type and mode that the pass
declares, at the mount that was declared when it was made. The certificate of an intermediate
authority was installed then or later, at the mount that was declared at that time. -/
theorem ready_where_made {pass : PassRecord} (h : History (passes ++ [pass]) s)
    (hok : pass.result = .ok outcome) :
    ∃ before maker after,
      passes ++ [pass] = before ++ maker :: after ∧
      GeneratedAt (mount maker.seen) pass.seen.spec.type pass.seen.spec.keyMode maker.events ∧
      (∀ later ∈ after, ∀ w ∈ writes later.events, ¬ IsGenerate w) ∧
      (pass.seen.spec.type = .intermediate →
        ∃ installer ∈ maker :: after, Installed installer.seen installer.events) := by
  obtain ⟨hearlier, rfl, settings, hends⟩ := h.last
  rw [hok] at hends
  have hsigned : pass.next.state.isSigned := (run_ends hends).isSigned outcome rfl
  obtain ⟨htype, hmode⟩ := observed_of_ok hearlier.invariant.consistent hends
  obtain ⟨before, maker, after, horigin⟩ := h.origin (CaState.isGenerated_of_isSigned hsigned)
  have htype : maker.seen.spec.type = pass.seen.spec.type :=
    Option.some.inj (horigin.type.symm.trans htype)
  have hmode : maker.seen.spec.keyMode = pass.seen.spec.keyMode :=
    Option.some.inj (horigin.keyMode.symm.trans hmode)
  obtain ⟨w, hw, hpath, response, hanswer, -⟩ := horigin.made
  rw [generatePath, htype, hmode] at hpath
  refine ⟨before, maker, after, horigin.passes_eq, ⟨w, hw, hpath, response, hanswer⟩, horigin.last,
    fun hintermediate => ?_⟩
  exact horigin.installed hsigned (htype.trans hintermediate)

/-- The root once a pass signed it, declared at another mount since. -/
def movedRoot : Pki :=
  { signedRoot with spec := { signedRoot.spec with path := "moved" } }

def rootRun :=
  (reconcile {} root).run Memory.Backends.storeWorld keyWorld

def movedRun :=
  (reconcile {} movedRoot).run Memory.Backends.storeWorld keyWorld

/-- A root is made, declared at another mount, and ready there. -/
theorem history_moved :
    ∃ result outcome,
      History ([⟨root, rootRun.events, result, progress movedRoot⟩] ++
        [⟨movedRoot, movedRun.events, .ok outcome, progress movedRoot⟩]) (progress movedRoot) := by
  have hfirst : rootRun.result.map (·.2) = some (progress movedRoot) := by decide +kernel
  have hsecond : movedRun.result.map (·.2) = some (progress movedRoot) := by decide +kernel
  have hok : (movedRun.result.map fun r => r.1.isOk) = some true := by decide +kernel
  have hstart : History [] (progress root) := .start
  obtain ⟨result, -, hmade⟩ := hstart.pass_of_run hfirst
  obtain ⟨result', hresult, hmoved⟩ := hmade.pass_of_run hsecond
  rw [movedRun, hresult] at hok
  cases result' with
  | error => cases hok
  | ok outcome => exact ⟨result, outcome, hmoved⟩

theorem ready_where_made_moved :
    ∃ passes, ∃ pass : PassRecord, ∃ s outcome, History (passes ++ [pass]) s ∧
      pass.result = .ok outcome ∧
      ∃ before maker after,
        passes ++ [pass] = before ++ maker :: after ∧
        GeneratedAt (mount maker.seen) pass.seen.spec.type pass.seen.spec.keyMode maker.events ∧
        (∀ later ∈ after, ∀ w ∈ writes later.events, ¬ IsGenerate w) ∧
        (pass.seen.spec.type = .intermediate →
          ∃ installer ∈ maker :: after, Installed installer.seen installer.events) := by
  obtain ⟨_, outcome, h⟩ := history_moved
  exact ⟨_, _, _, outcome, h, rfl, ready_where_made h rfl⟩

/-- A root is ready at a mount where none was made. -/
theorem ready_elsewhere :
    ¬ ∀ passes, ∀ pass : PassRecord, ∀ s outcome, History (passes ++ [pass]) s →
      pass.result = .ok outcome →
      ∃ earlier ∈ passes ++ [pass], ∃ type mode,
        GeneratedAt (mount pass.seen) type mode earlier.events := by
  intro hclaim
  obtain ⟨_, outcome, h⟩ := history_moved
  have hfirst : ∀ w ∈ writes rootRun.events, w.path = "pki/root/generate/internal" := by
    decide +kernel
  have hsecond : ∀ w ∈ writes movedRun.events, w.path = "pki/root/generate/internal" := by
    decide +kernel
  have helsewhere : ∀ type mode,
      "pki/root/generate/internal" ≠ (PkiOperation.generate type mode).path (mount movedRoot) := by
    rintro (_ | _) (_ | _) <;> decide +kernel
  obtain ⟨earlier, hmem, type, mode, w, hw, hpath, -⟩ := hclaim _ _ _ outcome h rfl
  simp only [List.cons_append, List.nil_append, List.mem_cons, List.not_mem_nil, or_false] at hmem
  rcases hmem with rfl | rfl
  · exact helsewhere type mode ((hfirst w hw).symm.trans hpath)
  · exact helsewhere type mode ((hsecond w hw).symm.trans hpath)

end VaultOperator.Pki
