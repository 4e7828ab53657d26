import VaultOperator.Proofs.Engine.Course
import VaultOperator.Proofs.RandomSecret.Standing
import VaultOperator.Proofs.Time.Range

/-!
# The course of a pass over a generated secret

The value is looked up, and the clock is read where there is one (`Seeks`). Only where there is
none, or its refresh is due, the password policy is asked for another, which is then written
(`Ending`).
-/

namespace VaultOperator.RandomSecret

open Engine (Course Draft Drafts LoginTrace Settings seek writeEvent)
open Program (Exec)

variable {r : RandomSecret} {s : Settings}

def lookUpEvent (r : RandomSecret) (session : Vault.Session)
    (answer : Except Vault.Error (Option Payload)) : Event :=
  .call (.vault (.read session (readPath r))) answer

def policyPath (r : RandomSecret) : String :=
  Path.passwordPolicyGenerate r.spec.passwordPolicy

def policyEvent (r : RandomSecret) (session : Vault.Session)
    (answer : Except Vault.Error (Option Payload)) : Event :=
  .call (.vault (.read session (policyPath r))) answer

/-- A refresh is due: there is a period, and it is not known when the last update was, or the period
is over since then. -/
inductive IsDue (r : RandomSecret) (now : Instant) : Prop
  | unknown (hperiod : r.spec.refreshPeriod = some text) (hparse : Duration.parse text = .ok period)
    (hnone : (lastUpdate? r).bind Instant.read? = none) : IsDue r now
  | elapsed (hperiod : r.spec.refreshPeriod = some text) (hparse : Duration.parse text = .ok period)
    (hlast : (lastUpdate? r).bind Instant.read? = some last)
    (hadded : last.addSeconds? period = some due) (hreached : due.le now) : IsDue r now

theorem refreshDue?_eq_true_iff :
    refreshDue? r.spec.refreshPeriod (lastUpdate? r) now = some true ↔ IsDue r now := by
  constructor
  · intro h
    unfold refreshDue? at h
    split at h
    · next period hperiod =>
      obtain ⟨text, htext, hparse⟩ := Option.map_eq_some_iff.1 hperiod
      split at h
      · next hnone => exact .unknown htext hparse hnone
      · next last hlast =>
        split at h
        · cases h
        · obtain ⟨due, hadded, hreached⟩ := Option.map_eq_some_iff.1 h
          exact .elapsed htext hparse hlast hadded hreached
    · cases h
  · intro h
    unfold refreshDue?
    cases h with
    | unknown hperiod hparse hnone => rw [hperiod, Option.map_some, hparse, hnone]
    | elapsed hperiod hparse hlast hadded hreached =>
      obtain ⟨time, -, hread⟩ := Option.bind_eq_some_iff.1 hlast
      have hspan := Instant.le_maxSpan_of_read? hread hadded
      simp only [hperiod, Option.map_some, hparse, hlast]
      rw [if_neg (Nat.not_lt.2 hspan), hadded, Option.map_some, hreached]

/-- A look after which a value is to be made: nothing is found, or no text that is not empty, or a
value whose refresh is due. -/
inductive CallsForValue (r : RandomSecret) (session : Vault.Session) : List Event → Prop
  | absent : CallsForValue r session [lookUpEvent r session (.ok none)]
  | empty (observed : Payload) (hempty : ¬ HasValue r observed) :
    CallsForValue r session [lookUpEvent r session (.ok (some observed))]
  | due (observed : Payload) (now : Instant) (hvalue : HasValue r observed)
    (hdue : IsDue r now) :
    CallsForValue r session [lookUpEvent r session (.ok (some observed)), .call .clock now]

/-- What is looked for and what comes of it: there was no answer, or a value is to be made, or there
is one and its refresh is not due. -/
inductive Seeks (r : RandomSecret) (session : Vault.Session) :
    List Event → Option (Except ReconcileError (Option Draft)) → Prop
  | unanswered (cause : Vault.Error) :
    Seeks r session [lookUpEvent r session (.error cause)] (some (.error (.remote cause)))
  | called (hcalls : CallsForValue r session es) (outcome : SyncOutcome) :
    Seeks r session es (some (.ok (some ⟨{}, createRequest r, outcome⟩)))
  | kept (observed : Payload) (now : Instant) (hvalue : HasValue r observed)
    (hrests : ¬ IsDue r now) (hidle : ∀ d, found ≠ some (.ok (some d))) :
    Seeks r session [lookUpEvent r session (.ok (some observed)), .call .clock now] found

/-- Without a value there is nothing to compare. -/
theorem exec_isEquivalent_of_empty (hempty : ¬ HasValue r observed)
    (h : Exec (isEquivalent r observed) es ended) : es = [] ∧ ended = some false := by
  rw [isEquivalent, if_neg (mt isPresent_iff.1 hempty)] at h
  exact Program.exec_done.1 h

-- ---------------------------------------------------------------------------
-- Steps of a pass
-- ---------------------------------------------------------------------------

/-- What is made of what is found. -/
def compare (r : RandomSecret) (observed : Payload) : Pass (Option Draft) := do
  if ← ExceptT.lift (isEquivalent r observed) then return none
  return some ⟨{}, createRequest r, .updated⟩

theorem seek_eq : seek (toVaultObject r) session = (do
    match ← Pass.read session (readPath r) with
    | none => return some ⟨{}, createRequest r, .created⟩
    | some observed => compare r observed) :=
  rfl

theorem compare_exec (h : Exec (compare r observed).run es found) :
    ∃ ended, Exec (isEquivalent r observed) es ended ∧
      found = ended.map fun same =>
        .ok (if same then none else some ⟨{}, createRequest r, .updated⟩) := by
  rcases exec_run_bind.1 h with ⟨same, es₁, es₂, hlift, hdone, rfl⟩ | ⟨_, hlift, -⟩ |
      ⟨hlift, rfl⟩ <;>
    obtain ⟨ended, hcompare, hsame⟩ := Engine.exec_lift hlift
  · obtain ⟨_, rfl, ⟨⟩⟩ := Option.map_eq_some_iff.1 hsame.symm
    refine ⟨some same, ?_⟩
    cases same <;>
    · obtain ⟨rfl, rfl⟩ := Program.exec_done.1 hdone
      rw [List.append_nil]
      exact ⟨hcompare, rfl⟩
  · obtain ⟨_, -, ⟨⟩⟩ := Option.map_eq_some_iff.1 hsame.symm
  · exact ⟨ended, hcompare, by rw [Option.map_eq_none_iff.1 hsame.symm]; rfl⟩

theorem seeks_of_compare (h : Exec (compare r observed).run es found) :
    Seeks r session (lookUpEvent r session (.ok (some observed)) :: es) found := by
  obtain ⟨ended, hcompare, rfl⟩ := compare_exec h
  by_cases hvalue : HasValue r observed
  · obtain ⟨now, rfl, rfl⟩ := exec_isEquivalent (isPresent_iff.2 hvalue) hcompare
    have hiff : refreshDue? r.spec.refreshPeriod (lastUpdate? r) now = some true ↔ IsDue r now :=
      refreshDue?_eq_true_iff
    cases hdue : refreshDue? r.spec.refreshPeriod (lastUpdate? r) now with
    | none => exact .kept observed now hvalue (by rw [← hiff, hdue]; nofun) nofun
    | some due =>
      cases due with
      | true => exact .called (.due observed now hvalue (hiff.1 hdue)) .updated
      | false => exact .kept observed now hvalue (by rw [← hiff, hdue]; nofun) nofun
  · obtain ⟨rfl, rfl⟩ := exec_isEquivalent_of_empty hvalue hcompare
    exact .called (.empty observed hvalue) .updated

theorem seek_exec (h : Exec (seek (toVaultObject r) session).run es found) :
    Seeks r session es found := by
  rw [seek_eq] at h
  rcases exec_run_bind.1 h with ⟨observed?, es₁, es₂, hread, hrest, rfl⟩ | ⟨_, hread, rfl⟩ |
    ⟨hread, -⟩
  · obtain ⟨answer, rfl, hanswer⟩ := Pass.ends_read.1 hread
    obtain rfl := ok_eq_mapError.1 hanswer
    cases observed? with
    | none =>
      obtain ⟨rfl, rfl⟩ := Program.exec_done.1 hrest
      exact .called .absent .created
    | some observed => exact seeks_of_compare hrest
  · obtain ⟨answer, rfl, hanswer⟩ := Pass.ends_read.1 hread
    obtain ⟨cause, rfl, rfl⟩ := error_eq_mapError.1 hanswer
    exact .unanswered cause
  · obtain ⟨_, ⟨⟩, -⟩ := (Pass.concludes_read (P := fun _ => True) trivial).ends hread

/-- The text under `password` in what the password policy answers. -/
def passwordOf (answer : Except Vault.Error (Option Payload)) : Option String :=
  answer.toOption.bind (·.bind (·.text? "password"))

/-- The policy is asked once, and its password is what is taken from it. -/
theorem prepareWrite_ends (h : Ends (prepareWrite r session v) es x) :
    ∃ answer, es = [policyEvent r session answer] ∧
      match passwordOf answer with
      | some value => x = .ok { v with generated := some value }
      | none => ∃ e, x = .error e := by
  rcases ends_bind.1 h with ⟨payload?, es₁, es₂, hread, hrest, rfl⟩ | ⟨e, hread, rfl⟩ <;>
    obtain ⟨answer, rfl, hanswer⟩ := Pass.ends_read.1 hread
  · obtain rfl := ok_eq_mapError.1 hanswer
    have hpassword : passwordOf (.ok payload?) = payload?.bind (·.text? "password") := rfl
    refine ⟨.ok payload?, ?_⟩
    rw [hpassword]
    cases htext : payload?.bind (·.text? "password") with
    | some value =>
      rw [htext] at hrest
      obtain ⟨rfl, rfl⟩ := ends_pure.1 hrest
      exact ⟨rfl, rfl⟩
    | none =>
      rw [htext] at hrest
      obtain ⟨rfl, rfl⟩ := ends_throw.1 hrest
      exact ⟨rfl, _, rfl⟩
  · obtain ⟨cause, rfl, rfl⟩ := error_eq_mapError.1 hanswer
    exact ⟨.error cause, rfl, _, rfl⟩

-- ---------------------------------------------------------------------------
-- A pass
-- ---------------------------------------------------------------------------

/-- What a pass does once it is logged in, to its end. -/
inductive Ending (r : RandomSecret) (session : Vault.Session) :
    List Event → Option (Except ReconcileError SyncOutcome) → Prop
  | unanswered (cause : Vault.Error)
    (hresult : ∀ outcome, result = some (.ok outcome) → outcome = .unchanged) :
    Ending r session [lookUpEvent r session (.error cause)] result
  | kept (observed : Payload) (now : Instant) (hvalue : HasValue r observed)
    (hrests : ¬ IsDue r now)
    (hresult : ∀ outcome, result = some (.ok outcome) → outcome = .unchanged) :
    Ending r session [lookUpEvent r session (.ok (some observed)), .call .clock now] result
  | unprepared (hcalls : CallsForValue r session looks)
    (answer : Except Vault.Error (Option Payload)) (hnone : passwordOf answer = none)
    (e : ReconcileError) :
    Ending r session (looks ++ [policyEvent r session answer]) (some (.error e))
  | wrote (hcalls : CallsForValue r session looks)
    (answer : Except Vault.Error (Option Payload)) (hvalue : passwordOf answer = some value)
    (written : Except Vault.Error (Option Payload)) (hwrote : outcome.wrote) :
    Ending r session (looks ++ [policyEvent r session answer,
      writeEvent session (createRequest r { generated := some value }) written])
      (some ((written.mapError .remote).map fun _ => outcome))

/-- A value that is drafted is either new or another one. -/
theorem wrote_of_seek (h : Ends (seek (toVaultObject r) session) es (.ok (some d))) :
    CallsForValue r session es ∧ d.values = {} ∧ d.request = createRequest r ∧ d.outcome.wrote := by
  have hwrote : d.outcome.wrote := by cases Engine.seek_ok h <;> rfl
  cases seek_exec h with
  | called hcalls => exact ⟨hcalls, rfl, rfl, hwrote⟩
  | kept _ _ _ _ hidle => exact absurd rfl (hidle d)

theorem ending_of_continuation (h : Engine.Continuation (toVaultObject r) session es result) :
    Ending r session es result := by
  cases h with
  | rested hseek hidle hresult =>
    cases seek_exec hseek with
    | unanswered cause => exact .unanswered cause hresult
    | called => exact absurd rfl (hidle _)
    | kept observed now hvalue hrests => exact .kept observed now hvalue hrests hresult
  | unprepared hseek hprepare =>
    obtain ⟨hcalls, -, -, -⟩ := wrote_of_seek hseek
    obtain ⟨answer, rfl, hanswer⟩ := prepareWrite_ends hprepare
    cases hpassword : passwordOf answer with
    | none => exact .unprepared hcalls answer hpassword _
    | some => rw [hpassword] at hanswer; cases hanswer
  | wrote hseek hprepared written =>
    obtain ⟨hcalls, hvalues, hrequest, hwrote⟩ := wrote_of_seek hseek
    obtain ⟨answer, rfl, hanswer⟩ := prepareWrite_ends hprepared
    cases hpassword : passwordOf answer with
    | none => rw [hpassword] at hanswer; obtain ⟨_, ⟨⟩⟩ := hanswer
    | some value =>
      rw [hpassword, hvalues] at hanswer
      cases hanswer
      rw [hrequest]
      exact .wrote hcalls answer hpassword written hwrote

-- ---------------------------------------------------------------------------
-- Reads
-- ---------------------------------------------------------------------------

/-- The one read of a look is the look-up, and comes first. -/
theorem lookUp_read {rest : List Event} (hrest : ∀ used path answer,
      .call (.vault (.read used path)) answer ∉ rest)
    (hes : lookUpEvent r session found :: rest =
      before ++ .call (.vault (.read used path)) answer :: after) :
    before = [] ∧ path = readPath r := by
  cases before with
  | nil =>
    obtain ⟨hread, -⟩ := List.cons.inj hes
    cases hread
    exact ⟨rfl, rfl⟩
  | cons e before =>
    obtain ⟨-, rfl⟩ := List.cons.inj hes
    exact absurd (by simp) (hrest used path answer)

theorem CallsForValue.read (h : CallsForValue r session es)
    (hes : es = before ++ .call (.vault (.read used path)) answer :: after) :
    before = [] ∧ path = readPath r := by
  cases h <;> exact lookUp_read (by simp) hes

/-- What a pass does before it asks for a password, or before it looks up a value. -/
theorem asked_in_draft (hcalls : CallsForValue r session es)
    (hasked : es ++ policyEvent r session a :: fs =
      before ++ .call (.vault (.read used path)) answer :: after)
    (hlast : ∀ used path answer, .call (.vault (.read used path)) answer ∉ fs) :
    (before = [] ∧ path = readPath r) ∨ CallsForValue r session before := by
  rcases append_eq_append_cons hasked with ⟨rest, hes⟩ | ⟨between, rfl, hrest⟩
  · exact .inl (hcalls.read hes)
  · cases between with
    | nil =>
      rw [List.append_nil]
      exact .inr hcalls
    | cons e between =>
      obtain ⟨-, rfl⟩ := List.cons.inj hrest
      exact absurd (List.mem_append_right _ List.mem_cons_self) (hlast used path answer)

theorem Ending.read (h : Ending r session es result)
    (hes : es = before ++ .call (.vault (.read used path)) answer :: after) :
    (before = [] ∧ path = readPath r) ∨ CallsForValue r session before := by
  cases h with
  | unanswered => exact .inl (lookUp_read (by simp) hes)
  | kept => exact .inl (lookUp_read (by simp) hes)
  | unprepared hcalls => exact asked_in_draft hcalls hes (by simp)
  | wrote hcalls =>
    exact asked_in_draft hcalls hes fun _ _ _ hmem => nomatch List.mem_singleton.1 hmem

/-- After the look-up nothing is read from Vault but a password, and that only where the look-up
calls for a value. -/
theorem asked_only_if_called_for (h : Course s (toVaultObject r) es result)
    (hes : es = before ++ .call (.vault (.read used path)) answer :: after) :
    ∃ login session looks, LoginTrace s r.metadata.nsAny r.spec.access login (.ok session) ∧
      before = login ++ looks ∧
      ((looks = [] ∧ path = readPath r) ∨ CallsForValue r session looks) := by
  have hsteps {login x} (hlogin : LoginTrace s r.metadata.nsAny r.spec.access login x) :
      .call (.vault (.read used path)) answer ∉ login := fun hmem => by
    cases hlogin.isLoginStep _ hmem
  cases h with
  | invalid => simp at hes
  | shutOut hlogin => exact absurd (hes ▸ by simp) (hsteps hlogin)
  | @admitted login session fs r hlogin hrest =>
    rcases append_eq_append_cons hes with ⟨rest, rfl⟩ | ⟨looks, rfl, rfl⟩
    · exact absurd (by simp) (hsteps hlogin)
    · exact ⟨login, session, looks, hlogin, rfl, (ending_of_continuation hrest).read rfl⟩

end VaultOperator.RandomSecret
