import VaultOperator.Proofs.Pki.Recorded

/-!
# Histories of a certificate authority

Passes over an authority, one after the other, whatever becomes of its declaration in between and
whatever the passes are answered. Each one starts from the progress that the one before it handed
back (`History`), and all of it is consistent (`history_invariant`).
-/

namespace VaultOperator.Pki

open VaultOperator.Path (PkiOperation)

/-- A pass: the authority it saw, what happened, how it ended and what it handed back. -/
structure PassRecord where
  seen : Pki
  events : List Event
  result : Except ReconcileError SyncOutcome
  next : CaProgress

/-- Passes from an authority of which nothing is known, in order, and the progress they end in.
Nothing but the recorded progress ties what a pass sees to the passes before. -/
inductive History : List PassRecord → CaProgress → Prop
  | start : History [] {}
  | pass {settings : Engine.Settings} {p : Pki} (earlier : History passes s) (hseen : progress p = s)
    (hpass : Program.Exec (reconcile settings p) es (some (result, next))) :
    History (passes ++ [⟨p, es, result, next⟩]) next

/-- No write makes a key or signs, at whatever mount. -/
def OnlyConfigures (es : List Event) : Prop :=
  ∀ w ∈ writes es, ∀ op mount, w.path = PkiOperation.path op mount → op = .configUrls

variable {p : Pki}

-- ---------------------------------------------------------------------------
-- One pass
-- ---------------------------------------------------------------------------

theorem reached_consistent {state : CaState}
    (hroot : p.spec.type = .root → ∃ isExported, state = .signed isExported)
    (hintermediate : p.spec.type = .intermediate →
      state = .notGenerated ∨ ∃ isExported,
        state = .awaitingSignature isExported ∨ state = .signed isExported)
    (hexported : state.isGenerated → state.isExported = isExported p) :
    (reached p state).Consistent where
  unobserved := nofun
  root h := hroot (Option.some.inj h)
  intermediate h := hintermediate (Option.some.inj h)
  observed h := ⟨p.spec.type, p.spec.keyMode, rfl, rfl, by simp [reached, hexported h, isExported]⟩

theorem Mirrors.consistent (hs : (progress p).Consistent) (h : Mirrors p es next) :
    next.Consistent := by
  cases h with
  | unchanged => exact hs
  | selfSigned _ _ htype =>
    refine reached_consistent (fun _ => ⟨_, rfl⟩) (by simp [htype]) fun _ => ?_
    cases isExported p <;> rfl
  | lost _ _ htype => exact reached_consistent (by simp [htype]) (fun _ => .inl rfl) nofun
  | waiting _ _ htype =>
    refine reached_consistent (by simp [htype]) (fun _ => .inr ⟨_, .inl rfl⟩) fun _ => ?_
    cases isExported p <;> rfl
  | installed _ _ htype =>
    refine reached_consistent (by simp [htype]) (fun _ => .inr ⟨_, .inr rfl⟩) fun _ => ?_
    cases isExported p <;> rfl

theorem Mirrors.eq_of_isSigned (h : Mirrors p es next) (hsigned : (progress p).state.isSigned) :
    next = progress p := by
  cases h with
  | unchanged => rfl
  | _ => contradiction

theorem onlyConfigures (hsigned : (progress p).state.isSigned) (hops : ops <+: plan p)
    (hmakes : Makes p es ops) : OnlyConfigures es := by
  intro w hw op mount hpath
  have hmem := hops.subset (hmakes.mem hw hpath)
  simp only [plan, CaState.isGenerated_of_isSigned hsigned, finishOps, hsigned, if_true,
    List.nil_append, urlOps] at hmem
  split at hmem <;> simp_all

-- ---------------------------------------------------------------------------
-- All passes
-- ---------------------------------------------------------------------------

/-- What holds of the passes so far, and of the progress that the next one starts from. -/
structure Invariant (passes : List PassRecord) (s : CaProgress) : Prop where
  consistent : s.Consistent
  recorded : ∀ pass ∈ passes, pass.next.Consistent ∧
    ∀ outcome, pass.result = .ok outcome → pass.next.state.isSigned
  kept : ∀ pass ∈ passes, pass.next.state.isSigned → s.state = pass.next.state
  final : passes.Pairwise fun earlier later => earlier.next.state.isSigned →
    later.next.state = earlier.next.state ∧ OnlyConfigures later.events

theorem Invariant.pass {settings : Engine.Settings} (h : Invariant passes (progress p))
    (hpass : Program.Exec (reconcile settings p) es (some (result, next))) :
    Invariant (passes ++ [⟨p, es, result, next⟩]) next := by
  obtain ⟨⟨_, _, ⟨⟩, hends⟩, -⟩ := reconcile_ends hpass
  obtain ⟨⟨ops, hops, hmakes⟩, hrecords, hok⟩ := run_ends hends
  have hmirrors := hrecords.mirrors h.consistent
  have hnext := hmirrors.consistent h.consistent
  have hkept : ∀ pass ∈ passes, pass.next.state.isSigned →
      next.state = pass.next.state ∧ OnlyConfigures es := by
    intro pass hmem hsigned
    have hstate := h.kept pass hmem hsigned
    have hsigned : (progress p).state.isSigned := hstate ▸ hsigned
    exact ⟨hmirrors.eq_of_isSigned hsigned ▸ hstate, onlyConfigures hsigned hops hmakes⟩
  refine ⟨hnext, ?_, ?_, ?_⟩
  · intro pass hmem
    rcases List.mem_append.1 hmem with hmem | hmem
    · exact h.recorded pass hmem
    · obtain rfl := List.mem_singleton.1 hmem
      exact ⟨hnext, hok⟩
  · intro pass hmem hsigned
    rcases List.mem_append.1 hmem with hmem | hmem
    · exact (hkept pass hmem hsigned).1
    · obtain rfl := List.mem_singleton.1 hmem
      rfl
  · rw [List.pairwise_append]
    exact ⟨h.final, List.pairwise_singleton _ _, by simpa using hkept⟩

theorem History.invariant (h : History passes s) : Invariant passes s := by
  induction h with
  | start => exact ⟨consistent_new, by simp, by simp, .nil⟩
  | pass _ hseen hpass ih =>
    subst hseen
    exact ih.pass hpass

/-- Whatever is edited between the passes and whatever they are answered, each of them leaves
consistent progress and only succeeds once the authority is signed; and once it is signed it stays
so, and nothing is made or signed again. -/
theorem history_invariant (h : History passes s) :
    (∀ pass ∈ passes, pass.next.Consistent ∧
      ∀ outcome, pass.result = .ok outcome → pass.next.state.isSigned) ∧
    passes.Pairwise fun earlier later => earlier.next.state.isSigned →
      later.next.state = earlier.next.state ∧ OnlyConfigures later.events :=
  ⟨h.invariant.recorded, h.invariant.final⟩

/-- A pass that runs in some world goes on with a history. -/
theorem History.pass_of_run {world : World σ} {b : σ} (h : History passes (progress p))
    (hrun : ((reconcile settings p).run world b).result.map (·.2) = some next) :
    ∃ result, ((reconcile settings p).run world b).result = some (result, next) ∧
      History (passes ++ [⟨p, ((reconcile settings p).run world b).events, result, next⟩]) next := by
  have hexec := Program.exec_run world (reconcile settings p) b
  obtain ⟨⟨result, next', hresult, -⟩, -⟩ := reconcile_ends hexec
  rw [hresult] at hrun hexec
  obtain rfl : next' = next := Option.some.inj hrun
  exact ⟨result, hresult, h.pass rfl hexec⟩

theorem history_of_run {world : World σ} {b : σ} (hnew : progress p = {})
    (hrun : ((reconcile settings p).run world b).result.map (·.2) = some next) :
    ∃ passes, History passes next := by
  have hstart : History [] (progress p) := hnew ▸ .start
  obtain ⟨result, -, h⟩ := hstart.pass_of_run hrun
  exact ⟨_, h⟩

def root : Pki :=
  { metadata := { name := some "root", ns := some "pki", finalizers := [finalizer] }
    spec :=
      { access := ⟨none, { role := "pki-admin" }⟩
        path := "pki"
        type := .root
        commonName := "Example Root" }
    status := none }

/-- The root once a pass signed it. -/
def signedRoot : Pki :=
  { root with status := some { progress := ⟨.signed false, some .root, some .internal⟩ } }

/-- The root as it is seen after a pass that signed it, with another subject and with addresses
that were not declared before. -/
def editedRoot : Pki :=
  { root with
    spec :=
      { root.spec with commonName := "Another Root", ocspServers := ["https://ocsp.example.com"] }
    status := some { progress := ⟨.signed false, some .root, some .internal⟩ } }

/-- A root is made, and then its declaration is edited. -/
theorem history_invariant_edited :
    ∃ passes s, History passes s ∧ passes.length = 2 ∧
      (∀ pass ∈ passes, pass.next.Consistent ∧
        ∀ outcome, pass.result = .ok outcome → pass.next.state.isSigned) ∧
      passes.Pairwise fun earlier later => earlier.next.state.isSigned →
        later.next.state = earlier.next.state ∧ OnlyConfigures later.events := by
  let first := (reconcile {} root).run Memory.Backends.storeWorld keyWorld
  let second := (reconcile {} editedRoot).run Memory.Backends.storeWorld keyWorld
  have hfirst : Program.Exec (reconcile {} root) first.events first.result :=
    Program.exec_run _ _ _
  have hsecond : Program.Exec (reconcile {} editedRoot) second.events second.result :=
    Program.exec_run _ _ _
  have hsigned : first.result.map (·.2) = some ⟨.signed false, some .root, some .internal⟩ := by
    decide +kernel
  obtain ⟨⟨result, next, hresult, -⟩, -⟩ := reconcile_ends hfirst
  obtain ⟨⟨result', next', hresult', -⟩, -⟩ := reconcile_ends hsecond
  rw [hresult] at hsigned hfirst
  rw [hresult'] at hsecond
  have hnext : progress editedRoot = next := (Option.some.inj hsigned).symm
  have h := (History.start.pass rfl hfirst).pass hnext hsecond
  exact ⟨_, _, h, rfl, history_invariant h⟩

end VaultOperator.Pki
