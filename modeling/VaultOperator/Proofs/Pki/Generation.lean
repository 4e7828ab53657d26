import VaultOperator.Proofs.Pki.History
import VaultOperator.Proofs.Pki.Seen
import VaultOperator.Proofs.Status.Stored
import VaultOperator.Proofs.Watch.Turns

/-!
# An authority is made once

The stored status is all that tells that an authority was made. Once it does no pass makes another,
until one finds the request to sign lost (`made_once`). A pass that made an authority and could not
record it leaves the next one to make another (`made_again`).
-/

namespace VaultOperator

theorem HasKey.edited (h : HasKey s) (hedit : t.get? "status" = s.get? "status") : HasKey t := by
  obtain ⟨status, recorded, hstatus, hrest⟩ := h
  exact ⟨status, recorded, hedit.trans hstatus, hrest⟩

theorem HasKey.patched {c : Call} (hc : c.KeepsAuthority) (hpatch : patch ∈ c.patch? o)
    (h : HasKey s) : HasKey (s.mergePatch patch) := by
  unfold Call.patch? at hpatch
  split at hpatch
  · next finalizers =>
    obtain ⟨-, hsame⟩ := Option.ite_none_right_eq_some.1 hpatch
    obtain rfl := Option.some.inj hsame
    exact h.patchFinalizers finalizers
  · obtain ⟨common, rfl⟩ := hc
    obtain ⟨-, hsame⟩ := Option.ite_none_right_eq_some.1 hpatch
    obtain rfl := Option.some.inj hsame
    exact h.patchCommon common
  · cases hpatch

namespace Pki

open VaultOperator.Path (PkiOperation)
open Watch (Turn Turns)

variable {settings : Engine.Settings} {p : Pki}

-- ---------------------------------------------------------------------------
-- One pass
-- ---------------------------------------------------------------------------

theorem isGenerated_keyed : (keyed p).state.isGenerated := by
  unfold keyed
  split
  · assumption
  · exact CaState.isGenerated_ofGeneration _

/-- A key that was made is recorded, unless the request to sign it is lost. -/
theorem Records.isGenerated (h : Records p es next) (hkept : ¬ CsrLost p es)
    (hkey : (progress p).state.isGenerated ∨ Begun p es) : next.state.isGenerated := by
  cases h with
  | unbegun hbegun => exact hkey.resolve_right hbegun
  | begun _ _ hnext =>
    cases hnext with
    | signed => exact isGenerated_keyed
    | lost _ _ hlost => exact absurd hlost hkept
    | _ => rfl

/-- The making of a key, for whatever mount. -/
def IsGenerate (w : VaultWrite) : Prop :=
  ∃ type mode mount, w.path = (PkiOperation.generate type mode).path mount

theorem not_isGenerate_of_finishOps (hops : ops <+: finishOps p s) (hmakes : Makes p es ops) :
    ∀ w ∈ writes es, ¬ IsGenerate w := by
  rintro w hw ⟨type, mode, mount, hpath⟩
  exact finishOps_generate (hops.subset (hmakes.mem hw hpath))

theorem not_isGenerate_of_makes (hgenerated : (progress p).state.isGenerated) (hops : ops <+: plan p)
    (hmakes : Makes p es ops) : ∀ w ∈ writes es, ¬ IsGenerate w := by
  rw [plan, if_pos hgenerated, List.nil_append] at hops
  exact not_isGenerate_of_finishOps hops hmakes

-- ---------------------------------------------------------------------------
-- One look
-- ---------------------------------------------------------------------------

/-- There is nothing that concerns the authority, or a pass that hands back a key if it starts with
one or makes one, and makes none if it starts with one. -/
theorem handsBack_or_idle (h : Program.Exec (Watch.reconcile c (.pki p) table) es r)
    (hkept : ¬ CsrLost p es) :
    (∀ c answer, .call c answer ∈ es → c.KeepsAuthority) ∨
      ∃ next : CaProgress,
        ((progress p).state.isGenerated ∨ Made p es → next.state.isGenerated) ∧
        ∀ e ∈ es, ∀ patch ∈ e.patch? (Object.pki p).ref,
          ∃ status : PkiStatus, status.progress = next ∧ patch = statusPatch status.toJson := by
  rcases seen_cases h with hidle | ⟨_, result, next, before, pass, after, hexec, hsurrounds⟩
  · exact .inl hidle
  · obtain ⟨⟨_, _, ⟨⟩, hends⟩, hunpatched⟩ := reconcile_ends hexec
    refine .inr ⟨next, fun hkey => ?_, hsurrounds.recorded hunpatched⟩
    have hrecords : Records p pass next := (run_ends hends).records
    refine hrecords.isGenerated (fun hlost => hkept (hsurrounds.csrLost hlost)) ?_
    exact hkey.imp_right fun hmade => (hsurrounds.made hmade).begun hends

/-- In a look at an authority its key was made, and stored what has to be kept of it. -/
def MakesKey (turn : Turn) : Prop :=
  ∃ p, turn.seen = .pki p ∧ Made p turn.events

/-- In a look at an authority the request to sign it was found lost. -/
def LosesCsr (turn : Turn) : Prop :=
  ∃ p, turn.seen = .pki p ∧ CsrLost p turn.events

variable {turn : Turn} {stored next : Json}

theorem exists_authority (h : turn.Takes .pki stored next) :
    ∃ p es, turn = ⟨.pki p, es⟩ ∧ Pki.ofJson? stored = some p ∧
      (∃ c table r, Program.Exec (Watch.reconcile c (.pki p) table) es r) ∧
      Stores (Object.pki p).ref es stored next := by
  obtain ⟨seen, es⟩ := turn
  obtain ⟨hseen, hpass, hstores⟩ := h
  obtain ⟨p, hread, rfl⟩ := Option.map_eq_some_iff.1 hseen
  exact ⟨p, es, rfl, hread, hpass, hstores⟩

theorem hasKey_of_takes (h : turn.Takes .pki stored next) (hkept : ¬ LosesCsr turn)
    (hkey : HasKey stored) : HasKey next := by
  obtain ⟨p, es, rfl, hread, ⟨c, table, r, hpass⟩, hstores⟩ := exists_authority h
  have hkept : ¬ CsrLost p es := fun hlost => hkept ⟨p, rfl, hlost⟩
  have hgenerated : (progress p).state.isGenerated := hkey.isGenerated hread
  refine hstores.invariant hkey (fun _ _ hedit hs => hs.edited hedit) ?_
  rcases handsBack_or_idle hpass hkept with hidle | ⟨next, hnext, hrecorded⟩
  · intro e he patch hpatch s hs
    cases e with
    | call c answer => exact hs.patched (hidle c answer he) hpatch
    | count => cases hpatch
  · intro e he patch hpatch s hs
    obtain ⟨status, rfl, rfl⟩ := hrecorded e he patch hpatch
    exact hasKey_of_patch s status (hnext (.inl hgenerated))

theorem hasKey_of_makesKey (h : turn.Takes .pki stored next) (hkept : ¬ LosesCsr turn)
    (hmade : MakesKey turn) (hrecorded : turn.IsRecorded) : HasKey next := by
  obtain ⟨p, es, rfl, -, ⟨c, table, r, hpass⟩, hstores⟩ := exists_authority h
  have hkept : ¬ CsrLost p es := fun hlost => hkept ⟨p, rfl, hlost⟩
  obtain ⟨_, ⟨⟩, hmade⟩ := hmade
  rcases handsBack_or_idle hpass hkept with hidle | ⟨next, hnext, hpatches⟩
  · obtain ⟨w, hw, -⟩ := hmade
    exact (hidle _ _ (mem_writes.1 hw)).elim
  · have hpatched : ∀ e ∈ es, ∀ patch ∈ e.patch? (Object.pki p).ref, ∀ s : Json,
        HasKey (s.mergePatch patch) := by
      intro e he patch hpatch s
      obtain ⟨status, rfl, rfl⟩ := hpatches e he patch hpatch
      exact hasKey_of_patch s status (hnext (.inr hmade))
    obtain ⟨status, hrecord⟩ := hrecorded
    refine hstores.established (fun _ _ hedit hs => hs.edited hedit)
      (fun e he patch hpatch s _ => hpatched e he patch hpatch s) ⟨_, hrecord, nofun, ?_⟩
    have hpatch : Event.patch? (Object.pki p).ref
        (.call (.cluster (.patchStatus (Object.pki p).ref status)) (.ok ())) =
        some (statusPatch status) := if_pos rfl
    exact ⟨_, hpatch, hpatched _ hrecord _ hpatch⟩

theorem not_isGenerate_of_takes (h : turn.Takes .pki stored next) (hkey : HasKey stored) :
    ∀ w ∈ writes turn.events, ¬ IsGenerate w := by
  obtain ⟨p, es, rfl, hread, ⟨c, table, r, hpass⟩, -⟩ := exists_authority h
  have hgenerated : (progress p).state.isGenerated := hkey.isGenerated hread
  rcases seen_cases hpass with hidle | ⟨_, result, next, before, pass, after, hexec, hsurrounds⟩
  · exact fun w hw => (hidle _ _ (mem_writes.1 hw)).elim
  · obtain ⟨⟨_, _, ⟨⟩, hends⟩, -⟩ := reconcile_ends hexec
    obtain ⟨⟨ops, hops, hmakes⟩, -⟩ := run_ends hends
    rw [hsurrounds.writes_eq]
    exact not_isGenerate_of_makes hgenerated hops hmakes

-- ---------------------------------------------------------------------------
-- All looks
-- ---------------------------------------------------------------------------

/-- Once an authority was made, what has to be kept of it stored, and the record of it made, no look
at it makes another, unless in between the request to sign was found lost. -/
theorem made_once {before between after : List Turn} {first later : Turn}
    (h : Turns .pki (before ++ first :: (between ++ later :: after)) stored final)
    (hmade : MakesKey first) (hrecorded : first.IsRecorded)
    (hkept : ∀ turn ∈ first :: between, ¬ LosesCsr turn) :
    ∀ w ∈ writes later.events, ¬ IsGenerate w := by
  obtain ⟨hfirst, hbetween⟩ := List.forall_mem_cons.1 hkept
  obtain ⟨_, _, _, _, htakes, hturns, hlater⟩ := h.between
  have hkey := hasKey_of_makesKey htakes hfirst hmade hrecorded
  refine not_isGenerate_of_takes hlater (hturns.invariant hkey fun turn hmem _ _ hturn hkey => ?_)
  exact hasKey_of_takes hturn (hbetween turn hmem) hkey

-- ---------------------------------------------------------------------------
-- A root
-- ---------------------------------------------------------------------------

/-- The root as the cluster stores it. -/
def storedRoot : Json :=
  Json.record
    [("metadata", Json.record
      [("name", .str "root"), ("namespace", .str "pki"),
        ("finalizers", Json.ofStrings [finalizer])]),
      ("spec", Json.record
        [("authentication", Json.record [("role", .str "pki-admin")]), ("path", .str "pki"),
          ("type", .str "root"), ("commonName", .str "Example Root")])]

def rootPath : String :=
  "/apis/vault.octopilot.io/v1alpha1/namespaces/pki/pkisecretengineconfigs/root"

/-- A cluster that stores the root, and where some requests fail. -/
def rootWorld (failures : Dict Kubernetes.Error) : Memory.Backends Memory.Cluster :=
  { cluster := { objects := Dict.ofList [(rootPath, storedRoot)], failures }
    clock := ⟨0, 0⟩ }

def lookAtRoot (failures : Dict Kubernetes.Error) :=
  (Watch.reconcile {} (.pki root) (.new 1 10)).run Memory.Backends.clusterWorld (rootWorld failures)

def rootTurn (failures : Dict Kubernetes.Error) : Turn :=
  ⟨.pki root, (lookAtRoot failures).events⟩

theorem rootTurn_takes {failures : Dict Kubernetes.Error}
    (h : Stores (Object.pki root).ref (lookAtRoot failures).events storedRoot next) :
    (rootTurn failures).Takes .pki storedRoot next := by
  have hexec : Program.Exec (Watch.reconcile {} (.pki root) (.new 1 10))
      (lookAtRoot failures).events (lookAtRoot failures).result := Program.exec_run _ _ _
  exact ⟨rfl, ⟨{}, .new 1 10, _, hexec⟩, h⟩

theorem root_kept {failures : Dict Kubernetes.Error} : ¬ LosesCsr (rootTurn failures) := by
  rintro ⟨_, ⟨⟩, hlost⟩
  simp [CsrLost, root] at hlost

/-- A write that Vault took, to the path that makes the key of the root. -/
def makesRoot (w : VaultWrite) : Bool :=
  w.path = generatePath root && w.answer.isOk

theorem makesRoot_ok (h : makesRoot w) :
    w.path = generatePath root ∧ ∃ response, w.answer = .ok response := by
  obtain ⟨hpath, hok⟩ := Bool.and_eq_true_iff.1 h
  refine ⟨of_decide_eq_true hpath, ?_⟩
  cases hanswer : w.answer with
  | ok response => exact ⟨response, rfl⟩
  | error => simp [hanswer, Except.isOk, Except.toBool] at hok

theorem makesKey_root (h : ∃ w ∈ writes (rootTurn failures).events, makesRoot w) :
    MakesKey (rootTurn failures) := by
  obtain ⟨w, hw, hmakes⟩ := h
  obtain ⟨hpath, response, hok⟩ := makesRoot_ok hmakes
  exact ⟨root, rfl, w, hw, hpath, response, hok, by simp [NeedsSecret, root]⟩

/-- The root after a look at which nothing fails. -/
def rootBetween : Json :=
  storedAfter (Object.pki root).ref (lookAtRoot ∅).events storedRoot

/-- All that is asked of that look, in one evaluation. -/
theorem rootTurn_facts :
    (∃ w ∈ writes (rootTurn ∅).events, makesRoot w) ∧ (rootTurn ∅).IsRecorded ∧
      (Pki.ofJson? rootBetween).isSome := by
  decide +kernel

/-- A root that is made and recorded is not made again. -/
theorem made_once_root :
    ∃ stored first later final, Turns .pki ([] ++ first :: ([] ++ later :: [])) stored final ∧
      MakesKey first ∧ first.IsRecorded ∧ (∀ turn ∈ first :: [], ¬ LosesCsr turn) ∧
      ∀ w ∈ writes later.events, ¬ IsGenerate w := by
  obtain ⟨hmakes, hrecorded, hparsed⟩ := rootTurn_facts
  obtain ⟨p, hp⟩ := Option.isSome_iff_exists.1 hparsed
  let second :=
    (Watch.reconcile {} (.pki p) (.new 1 10)).run Memory.Backends.clusterWorld (rootWorld ∅)
  have hexec : Program.Exec (Watch.reconcile {} (.pki p) (.new 1 10)) second.events second.result :=
    Program.exec_run _ _ _
  have hseen : Object.ofJson? .pki rootBetween = some (.pki p) := by
    show (Pki.ofJson? rootBetween).map Object.pki = _
    rw [hp]
    rfl
  have hsecond : Turn.Takes .pki ⟨.pki p, second.events⟩ rootBetween
      (storedAfter (Object.pki p).ref second.events rootBetween) :=
    ⟨hseen, ⟨_, _, _, hexec⟩, stores_storedAfter⟩
  have hturns :
      Turns .pki ([] ++ rootTurn ∅ :: ([] ++ ⟨.pki p, second.events⟩ :: [])) storedRoot _ :=
    .cons (rootTurn_takes stores_storedAfter) (.cons hsecond .nil)
  have hmade : MakesKey (rootTurn ∅) := makesKey_root hmakes
  have hkept : ∀ turn ∈ rootTurn ∅ :: [], ¬ LosesCsr turn :=
    List.forall_mem_singleton.2 root_kept
  exact ⟨_, _, _, _, hturns, hmade, hrecorded, hkept, made_once hturns hmade hrecorded hkept⟩

def statusFailure : Dict Kubernetes.Error :=
  Dict.ofList [("PATCH " ++ rootPath ++ "/status", .api 500 "not now" "InternalError")]

/-- Where the record of a root that was made fails, the next look makes it again. -/
theorem made_again :
    ¬ ∀ stored before first between later after final spec,
      Turns .pki (before ++ first :: (between ++ later :: after)) stored final →
      (∀ turn ∈ before ++ first :: (between ++ later :: after),
        ∃ p, turn.seen = .pki p ∧ p.spec = spec ∧ validate p = .ok ()) →
      (∃ w ∈ writes first.events, IsGenerate w ∧ ∃ response, w.answer = .ok response) →
      (∀ turn ∈ first :: between, ¬ LosesCsr turn) →
      ∀ w ∈ writes later.events, ¬ IsGenerate w := by
  intro hclaim
  let turn := rootTurn statusFailure
  have hrefused : ∀ e ∈ turn.events,
      (e.patch? (Object.pki root).ref).isNone || e.isRefused := by decide +kernel
  have hmakes : ∃ w ∈ writes turn.events, makesRoot w := by decide +kernel
  have htakes : turn.Takes .pki storedRoot storedRoot :=
    rootTurn_takes (stores_unchanged fun e he => by simpa using hrefused e he)
  have hvalid : turn.seen = .pki root ∧ root.spec = root.spec ∧ validate root = .ok () :=
    ⟨rfl, rfl, rfl⟩
  obtain ⟨w, hw, hmakes⟩ := hmakes
  obtain ⟨hpath, hok⟩ := makesRoot_ok hmakes
  have hgenerate : IsGenerate w := ⟨_, _, _, hpath⟩
  refine hclaim storedRoot [] turn [] turn [] storedRoot root.spec
    (.cons htakes (.cons htakes .nil)) ?_ ⟨w, hw, hgenerate, hok⟩ ?_ w hw hgenerate
  · intro other hmem
    obtain rfl : other = turn := by simpa using hmem
    exact ⟨root, hvalid⟩
  · exact List.forall_mem_singleton.2 root_kept

end Pki

end VaultOperator
