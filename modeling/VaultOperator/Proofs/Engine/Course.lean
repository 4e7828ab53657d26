import VaultOperator.Proofs.Engine.Reconcile

/-!
# The course of a pass

A pass over an object logs in once, looks around in the session it is granted, and may end with one
write (`Course`). Nothing is assumed of the answers, so this is so before a Vault that is broken or
hostile too.
-/

namespace VaultOperator.Engine

open Program (Exec)

variable {o : VaultObject} {s : Settings}

def writeEvent (session : Vault.Session) (request : WriteRequest)
    (answer : Except Vault.Error (Option Payload)) : Event :=
  .call (.vault (.write session request.path request.body)) answer

-- ---------------------------------------------------------------------------
-- Looking first, and then writing
-- ---------------------------------------------------------------------------

/-- A write that is called for: what was found out for it, how it is made and what it comes to. -/
structure Draft where
  values : InternalValues
  request : InternalValues → WriteRequest
  outcome : SyncOutcome

/-- Finds out whether to write, and what. -/
def seek (o : VaultObject) (session : Vault.Session) : Pass (Option Draft) := do
  let v ← o.prepare session
  match ← o.readObserved session with
  | none => return some ⟨v, o.createRequest, .created⟩
  | some observed =>
    if ← ExceptT.lift (o.isEquivalent v observed) then return none
    return some ⟨v, o.updateRequest, .updated⟩

def carryOut (o : VaultObject) (session : Vault.Session) : Option Draft → Pass SyncOutcome
  | none => return .unchanged
  | some d => do
    let v ← o.prepareWrite session d.values
    let _ ← Pass.write session (d.request v).path (d.request v).body
    return d.outcome

theorem reconcile_eq : reconcile s o = (do
    Pass.check o.validate
    let session ← login s o.ns o.access
    carryOut o session (← seek o session)) := by
  unfold reconcile seek
  refine bind_congr fun _ => bind_congr fun session => ?_
  simp only [bind_assoc]
  refine bind_congr fun v => bind_congr fun observed => ?_
  cases observed with
  | none => simp only [pure_bind, carryOut, write, bind_assoc]
  | some observed =>
    simp only [bind_assoc]
    refine bind_congr fun same => ?_
    cases same with
    | true => simp only [if_true, pure_bind, carryOut]
    | false => simp only [Bool.false_eq_true, if_false, pure_bind, carryOut, write, bind_assoc]

/-- Finds out all that is known before Vault is asked for the object. -/
def gather (s : Settings) (o : VaultObject) : Pass (Vault.Session × InternalValues) := do
  Pass.check o.validate
  let session ← login s o.ns o.access
  let v ← o.prepare session
  return (session, v)

/-- What is done about what is found. -/
def settle (o : VaultObject) (session : Vault.Session) (v : InternalValues) :
    Option Payload → Pass SyncOutcome
  | none => do
    write session o v o.createRequest
    return .created
  | some observed => do
    if ← ExceptT.lift (o.isEquivalent v observed) then return .unchanged
    write session o v o.updateRequest
    return .updated

theorem reconcile_eq_gather : reconcile s o = (do
    let (session, v) ← gather s o
    settle o session v (← o.readObserved session)) := by
  simp only [reconcile, gather, bind_assoc, pure_bind]
  refine bind_congr fun _ => bind_congr fun session => bind_congr fun v => ?_
  refine bind_congr fun observed => ?_
  cases observed <;> rfl

/-- What is found calls for a write: of a new object where there is none, and of a change where
there is another than is desired. -/
inductive Drafts (o : VaultObject) (session : Vault.Session) : List Event → Draft → Prop
  | create (v : InternalValues) (hprepare : Ends (o.prepare session) es (.ok v))
    (hread : Ends (o.readObserved session) fs (.ok none)) :
    Drafts o session (es ++ fs) ⟨v, o.createRequest, .created⟩
  | update (v : InternalValues) (observed : Payload)
    (hprepare : Ends (o.prepare session) es (.ok v))
    (hread : Ends (o.readObserved session) fs (.ok (some observed)))
    (hdiffers : Exec (o.isEquivalent v observed) gs (some false)) :
    Drafts o session (es ++ (fs ++ gs)) ⟨v, o.updateRequest, .updated⟩

theorem seek_ok (h : Ends (seek o session) es (.ok (some d))) : Drafts o session es d := by
  rcases ends_bind.1 h with ⟨v, es₁, _, hprepare, h₁, rfl⟩ | ⟨_, -, ⟨⟩⟩
  rcases ends_bind.1 h₁ with ⟨observed, es₂, es₃, hread, h₂, rfl⟩ | ⟨_, -, ⟨⟩⟩
  cases observed with
  | none =>
    obtain ⟨rfl, ⟨⟩⟩ := ends_pure.1 h₂
    rw [List.append_nil]
    exact .create v hprepare hread
  | some observed =>
    rcases ends_bind.1 h₂ with ⟨same, es₄, es₅, hcompare, h₃, rfl⟩ | ⟨_, -, ⟨⟩⟩
    obtain ⟨_, hcompare, ⟨⟩⟩ := ends_lift.1 hcompare
    cases same with
    | true => obtain ⟨-, ⟨⟩⟩ := ends_pure.1 h₃
    | false =>
      obtain ⟨rfl, ⟨⟩⟩ := ends_pure.1 h₃
      rw [List.append_nil]
      exact .update v observed hprepare hread hcompare

/-- All that happens asks for no more than `Call.LooksIn` allows. -/
def OnlyLooksIn (session : Vault.Session) (es : List Event) : Prop :=
  ∀ c answer, .call c answer ∈ es → c.LooksIn session

theorem OnlyLooksIn.append (h : OnlyLooksIn session es) (h' : OnlyLooksIn session fs) :
    OnlyLooksIn session (es ++ fs) := fun c answer hmem =>
  (List.mem_append.1 hmem).elim (h c answer) (h' c answer)

theorem onlyLooksIn_of_concludes (hp : Concludes (Call.LooksIn session) p)
    (h : Exec p.run es r) : OnlyLooksIn session es :=
  (hp es r h).2

theorem onlyLooksIn_of_isEquivalent (hkeeps : KeepsSession o)
    (h : Exec (o.isEquivalent v observed) es r) : OnlyLooksIn session es := fun c answer hmem => by
  rw [hkeeps.isEquivalent _ _ _ _ h c answer hmem]
  exact ⟨rfl, rfl⟩

theorem onlyLooksIn_seek (hkeeps : KeepsSession o) (h : Exec (seek o session).run es r) :
    OnlyLooksIn session es := by
  have hprepare := hkeeps.prepare session
  have hread := hkeeps.readObserved session
  rcases exec_run_bind.1 h with ⟨v, es₁, _, h₁, hrest, rfl⟩ | ⟨_, h₁, -⟩ | ⟨h₁, -⟩
  · refine .append (onlyLooksIn_of_concludes hprepare h₁) ?_
    rcases exec_run_bind.1 hrest with ⟨observed, es₂, es₃, h₂, hcheck, rfl⟩ | ⟨_, h₂, -⟩ | ⟨h₂, -⟩
    · refine .append (onlyLooksIn_of_concludes hread h₂) ?_
      cases observed with
      | none => exact (concludes_pure _ _ hcheck).2
      | some observed =>
        rcases exec_run_bind.1 hcheck with ⟨same, es₄, es₅, h₃, hdone, rfl⟩ | ⟨_, h₃, -⟩ |
          ⟨h₃, -⟩ <;>
          obtain ⟨_, hcompare, -⟩ := exec_lift h₃
        · refine .append (onlyLooksIn_of_isEquivalent hkeeps hcompare) ?_
          cases same <;> exact (concludes_pure _ _ hdone).2
        · exact onlyLooksIn_of_isEquivalent hkeeps hcompare
        · exact onlyLooksIn_of_isEquivalent hkeeps hcompare
    · exact onlyLooksIn_of_concludes hread h₂
    · exact onlyLooksIn_of_concludes hread h₂
  · exact onlyLooksIn_of_concludes hprepare h₁
  · exact onlyLooksIn_of_concludes hprepare h₁

-- ---------------------------------------------------------------------------
-- A pass
-- ---------------------------------------------------------------------------

/-- How a pass goes on once it is logged in. -/
inductive Continuation (o : VaultObject) (session : Vault.Session) :
    List Event → Option (Except ReconcileError SyncOutcome) → Prop
  | rested (hseek : Exec (seek o session).run es found)
    (hidle : ∀ d, found ≠ some (.ok (some d)))
    (hresult : ∀ outcome, r = some (.ok outcome) → outcome = .unchanged) :
    Continuation o session es r
  | unprepared (hseek : Ends (seek o session) es (.ok (some d)))
    (hprepare : Ends (o.prepareWrite session d.values) fs (.error e)) :
    Continuation o session (es ++ fs) (some (.error e))
  | wrote (hseek : Ends (seek o session) es (.ok (some d)))
    (hprepared : Ends (o.prepareWrite session d.values) fs (.ok v))
    (answer : Except Vault.Error (Option Payload)) :
    Continuation o session (es ++ (fs ++ [writeEvent session (d.request v) answer]))
      (some ((answer.mapError .remote).map fun _ => d.outcome))

/-- A pass over an object from its first event to its last. -/
inductive Course (s : Settings) (o : VaultObject) :
    List Event → Option (Except ReconcileError SyncOutcome) → Prop
  | invalid (hinvalid : o.validate = .error cause) :
    Course s o [] (some (.error (.validation cause)))
  | shutOut (hlogin : LoginTrace s o.ns o.access es (.error e)) : Course s o es (some (.error e))
  | admitted (hlogin : LoginTrace s o.ns o.access es (.ok session))
    (hrest : Continuation o session fs r) : Course s o (es ++ fs) r

theorem carryOut_exec (hkeeps : KeepsSession o) (hseek : Ends (seek o session) es (.ok (some d)))
    (h : Exec (carryOut o session (some d)).run fs r) : Continuation o session (es ++ fs) r := by
  have hconcludes := hkeeps.prepareWrite session d.values
  rcases exec_run_bind.1 h with ⟨v, es₁, _, hprepared, h₁, rfl⟩ | ⟨e, hprepare, rfl⟩ | ⟨hprepare, -⟩
  · rcases exec_run_bind.1 h₁ with ⟨response, _, _, hwrite, hdone, rfl⟩ | ⟨e, hwrite, rfl⟩ |
      ⟨hwrite, -⟩
    · obtain ⟨answer, rfl, hok⟩ := Pass.ends_write.1 hwrite
      obtain rfl := ok_eq_mapError.1 hok
      obtain ⟨rfl, rfl⟩ := Program.exec_done.1 hdone
      exact .wrote hseek hprepared (.ok response)
    · obtain ⟨answer, rfl, herror⟩ := Pass.ends_write.1 hwrite
      obtain ⟨cause, rfl, rfl⟩ := error_eq_mapError.1 herror
      exact .wrote hseek hprepared (.error cause)
    · obtain ⟨_, ⟨⟩, -⟩ := (Pass.concludes_write (P := fun _ => True) trivial).ends hwrite
  · exact .unprepared hseek hprepare
  · obtain ⟨_, ⟨⟩, -⟩ := hconcludes.ends hprepare

theorem admitted_exec (hkeeps : KeepsSession o)
    (h : Exec (seek o session >>= carryOut o session).run es r) : Continuation o session es r := by
  rcases exec_run_bind.1 h with ⟨d?, es₁, es₂, hseek, h₁, rfl⟩ | ⟨e, hseek, rfl⟩ | ⟨hseek, rfl⟩
  · cases d? with
    | none =>
      obtain ⟨rfl, rfl⟩ := Program.exec_done.1 h₁
      rw [List.append_nil]
      exact .rested hseek nofun fun _ hsame => by cases hsame; rfl
    | some d => exact carryOut_exec hkeeps hseek h₁
  · exact .rested hseek nofun nofun
  · exact .rested hseek nofun nofun

theorem reconcile_course (hkeeps : KeepsSession o) (h : Exec (reconcile s o).run es r) :
    Course s o es r := by
  rw [reconcile_eq] at h
  rcases exec_run_bind.1 h with ⟨_, es₁, es₂, hcheck, h₁, rfl⟩ | ⟨e, hcheck, rfl⟩ | ⟨hcheck, -⟩
  · obtain ⟨rfl, -⟩ := Pass.ends_check.1 hcheck
    rcases exec_run_bind.1 h₁ with ⟨session, es₃, es₄, hlogin, h₂, rfl⟩ | ⟨e, hlogin, rfl⟩ |
      ⟨hlogin, -⟩
    · show Course s o (es₃ ++ es₄) r
      exact .admitted (login_trace hlogin) (admitted_exec hkeeps h₂)
    · exact .shutOut (login_trace hlogin)
    · obtain ⟨_, ⟨⟩, -⟩ := (concludes_login (P := fun _ => True) fun _ _ => trivial).ends hlogin
  · obtain ⟨rfl, hcause⟩ := Pass.ends_check.1 hcheck
    obtain ⟨cause, hinvalid, rfl⟩ := error_eq_mapError.1 hcause
    exact .invalid hinvalid
  · obtain ⟨_, ⟨⟩, -⟩ := (Pass.concludes_check (P := fun _ => True)).ends hcheck

end VaultOperator.Engine
