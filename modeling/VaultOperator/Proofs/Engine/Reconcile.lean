import VaultOperator.Engine.Reconcile
import VaultOperator.Proofs.Engine.Echo

/-!
# Passes over objects of one path

What a pass that succeeds found out and did (`reconcile_ok`), what it leaves behind in a Vault that
echoes (`leaves_of_reconcile`), and what it takes for a pass to find that there is nothing to do
(`unchanged_of_stands`).
-/

namespace VaultOperator.Engine

/-- How a pass ends that knows what is there: nothing is written where that is what is desired, and
else a request that depends on whether anything is there. -/
inductive Settled (o : VaultObject) (session : Vault.Session) (v : InternalValues) :
    Option Payload → List Event → SyncOutcome → Prop
  | same (observed : Payload) (hsame : Program.Exec (o.isEquivalent v observed) es (some true)) :
    Settled o session v (some observed) es .unchanged
  | created (v' : InternalValues) (response : Option Payload)
    (hprepared : Ends (o.prepareWrite session v) es (.ok v')) :
    Settled o session v none
      (es ++ [.call (.vault (.write session (o.createRequest v').path (o.createRequest v').body))
        (.ok response)]) .created
  | updated (observed : Payload) (v' : InternalValues) (response : Option Payload)
    (hdiffers : Program.Exec (o.isEquivalent v observed) es (some false))
    (hprepared : Ends (o.prepareWrite session v) fs (.ok v')) :
    Settled o session v (some observed)
      (es ++ (fs ++
        [.call (.vault (.write session (o.updateRequest v').path (o.updateRequest v').body))
          (.ok response)])) .updated

/-- A pass that succeeded: what it found out, and how it ended. -/
inductive Reconciled (s : Settings) (o : VaultObject) : List Event → SyncOutcome → Prop
  | mk (session : Vault.Session) (v : InternalValues) (observed : Option Payload)
    (hlogin : Ends (login s o.ns o.access) es₁ (.ok session))
    (hprepare : Ends (o.prepare session) es₂ (.ok v))
    (hread : Ends (o.readObserved session) es₃ (.ok observed))
    (hsettled : Settled o session v observed es₄ outcome) :
    Reconciled s o (es₁ ++ (es₂ ++ (es₃ ++ es₄))) outcome

theorem write_ok {request : InternalValues → WriteRequest}
    (h : Ends (write session o v request) es (.ok ())) :
    ∃ es' v' response, Ends (o.prepareWrite session v) es' (.ok v') ∧
      es = es' ++ [.call (.vault (.write session (request v').path (request v').body))
        (.ok response)] := by
  rcases ends_bind.1 h with ⟨v', es₁, es₂, hprepared, hwrite, rfl⟩ | ⟨_, -, ⟨⟩⟩
  rcases ends_bind.1 hwrite with ⟨response, es₃, es₄, hanswer, hdone, rfl⟩ | ⟨_, -, ⟨⟩⟩
  obtain ⟨answer, rfl, hok⟩ := Pass.ends_write.1 hanswer
  obtain rfl := ok_eq_mapError.1 hok
  obtain ⟨rfl, -⟩ := ends_pure.1 hdone
  exact ⟨es₁, v', response, hprepared, rfl⟩

theorem reconcile_ok (h : Ends (reconcile s o) es (.ok outcome)) :
    o.validate = .ok () ∧ Reconciled s o es outcome := by
  rcases ends_bind.1 h with ⟨_, _, _, hcheck, h₁, rfl⟩ | ⟨_, -, ⟨⟩⟩
  obtain ⟨rfl, hvalid⟩ := Pass.ends_check.1 hcheck
  have hvalid : o.validate = .ok () := ok_eq_mapError.1 hvalid
  rcases ends_bind.1 h₁ with ⟨session, es₁, _, hlogin, h₂, rfl⟩ | ⟨_, -, ⟨⟩⟩
  rcases ends_bind.1 h₂ with ⟨v, es₂, _, hprepare, h₃, rfl⟩ | ⟨_, -, ⟨⟩⟩
  rcases ends_bind.1 h₃ with ⟨observed, es₃, es₄, hread, h₄, rfl⟩ | ⟨_, -, ⟨⟩⟩
  rw [List.nil_append]
  refine ⟨hvalid, .mk session v observed hlogin hprepare hread ?_⟩
  cases observed with
  | none =>
    rcases ends_bind.1 h₄ with ⟨_, es₅, _, hwrite, hdone, rfl⟩ | ⟨_, -, ⟨⟩⟩
    obtain ⟨rfl, ⟨⟩⟩ := ends_pure.1 hdone
    obtain ⟨es₆, v', response, hprepared, rfl⟩ := write_ok hwrite
    rw [List.append_nil]
    exact .created v' response hprepared
  | some observed =>
    rcases ends_bind.1 h₄ with ⟨same, es₅, es₆, hcompare, h₅, rfl⟩ | ⟨_, -, ⟨⟩⟩
    obtain ⟨_, hcompare, ⟨⟩⟩ := ends_lift.1 hcompare
    cases same with
    | true =>
      obtain ⟨rfl, ⟨⟩⟩ := ends_pure.1 h₅
      rw [List.append_nil]
      exact .same observed hcompare
    | false =>
      rcases ends_bind.1 h₅ with ⟨_, es₇, _, hwrite, hdone, rfl⟩ | ⟨_, -, ⟨⟩⟩
      obtain ⟨rfl, ⟨⟩⟩ := ends_pure.1 hdone
      obtain ⟨es₈, v', response, hprepared, rfl⟩ := write_ok hwrite
      rw [List.append_nil]
      exact .updated observed v' response hcompare hprepared

-- ---------------------------------------------------------------------------
-- What a pass leaves behind
-- ---------------------------------------------------------------------------

/-- Nothing but a request for a write is written. -/
structure OnlyLooks (o : VaultObject) : Prop where
  prepare : ∀ session, Concludes Call.WritesNothing (o.prepare session)
  readObserved : ∀ session, Concludes Call.WritesNothing (o.readObserved session)
  prepareWrite : ∀ session v, Concludes Call.WritesNothing (o.prepareWrite session v)
  isEquivalent : ∀ v observed es r, Program.Exec (o.isEquivalent v observed) es r → writes es = []

/-- Before it is written an object is only looked for, in the session of the pass, and nothing but the
clock tells whether what is found is as desired. -/
structure KeepsSession (o : VaultObject) : Prop where
  prepare : ∀ session, Concludes (Call.LooksIn session) (o.prepare session)
  readObserved : ∀ session, Concludes (Call.LooksIn session) (o.readObserved session)
  prepareWrite : ∀ session v, Concludes (Call.LooksIn session) (o.prepareWrite session v)
  isEquivalent : ∀ v observed es r, Program.Exec (o.isEquivalent v observed) es r →
    ∀ c answer, .call c answer ∈ es → c = .clock

theorem KeepsSession.onlyLooks (h : KeepsSession o) : OnlyLooks o where
  prepare session := (h.prepare session).mono fun _ => Call.writesNothing_of_looksIn
  readObserved session := (h.readObserved session).mono fun _ => Call.writesNothing_of_looksIn
  prepareWrite session v := (h.prepareWrite session v).mono fun _ => Call.writesNothing_of_looksIn
  isEquivalent v observed es r hexec := writes_eq_nil_of_writesNothing fun c answer hmem => by
    rw [h.isEquivalent v observed es r hexec c answer hmem]
    trivial

theorem writes_of_concludes (hp : Concludes Call.WritesNothing p) (h : Program.Exec p.run es r) :
    writes es = [] :=
  writes_eq_nil_of_writesNothing (hp es r h).2

theorem writes_of_login (h : Program.Exec (login s ns access).run es r) : writes es = [] :=
  writes_of_concludes (concludes_login fun _ => Call.writesNothing_of_isLoginStep) h

/-- What is in Vault after a pass that succeeded: what there was, if that was as desired, and else
the echo of a request. -/
inductive Leaves (store : StoreContent) (engine : Backend) (o : VaultObject)
    (session : Vault.Session) (v : InternalValues) (before : VaultContent) :
    SyncOutcome → VaultContent → Prop
  | same (observed : Payload)
    (hread : Ends (o.readObserved session) es (.ok (some observed)))
    (hgiven : ∀ e ∈ es, Given store before e)
    (hsame : Program.Exec (o.isEquivalent v observed) fs (some true)) :
    Leaves store engine o session v before .unchanged before
  | created {between : VaultContent} (v' : InternalValues)
    (hprepared : Ends (o.prepareWrite session v) es (.ok v'))
    (hgiven : ∀ e ∈ es, Given store before e)
    (hechoes : engine.Echoes before between (o.createRequest v').path (o.createRequest v').body) :
    Leaves store engine o session v before .created between
  | updated {between : VaultContent} (observed : Payload) (v' : InternalValues)
    (hread : Ends (o.readObserved session) es (.ok (some observed)))
    (hgiven : ∀ e ∈ es, Given store before e)
    (hprepared : Ends (o.prepareWrite session v) fs (.ok v'))
    (hgiven' : ∀ e ∈ fs, Given store before e)
    (hechoes : engine.Echoes before between (o.updateRequest v').path (o.updateRequest v').body) :
    Leaves store engine o session v before .updated between

/-- What a pass that succeeded started with, and what it left behind. -/
inductive Left (store : StoreContent) (engine : Backend) (s : Settings) (o : VaultObject)
    (before : VaultContent) (outcome : SyncOutcome) (between : VaultContent) : Prop
  | mk (session : Vault.Session) (v : InternalValues)
    (hlogin : Ends (login s o.ns o.access) es (.ok session))
    (hgiven : ∀ e ∈ es, Given store before e)
    (hprepare : Ends (o.prepare session) fs (.ok v))
    (hgiven' : ∀ e ∈ fs, Given store before e)
    (hleaves : Leaves store engine o session v before outcome between) :
    Left store engine s o before outcome between

variable {store : StoreContent} {engine : Backend} {before between after : VaultContent}

theorem leaves_of_settled (hlooks : OnlyLooks o)
    (hread : Ends (o.readObserved session) es (.ok observed))
    (hgiven : ∀ e ∈ es, Given store before e) (hsettled : Settled o session v observed fs outcome)
    (hfs : Happens store engine before fs between) :
    Leaves store engine o session v before outcome between := by
  cases hsettled with
  | same observed hsame =>
    obtain ⟨rfl, -⟩ := happens_of_writes_eq_nil (hlooks.isEquivalent v observed _ _ hsame) hfs
    exact .same observed hread hgiven hsame
  | created v' response hprepared =>
    have hcalm := writes_of_concludes (hlooks.prepareWrite session v) hprepared
    obtain ⟨hgiven', hwrite⟩ := hfs.split hcalm
    exact .created v' hprepared hgiven' (echoes_of_happens hwrite)
  | updated observed v' response hdiffers hprepared =>
    obtain ⟨-, hfs⟩ := hfs.split (hlooks.isEquivalent v observed _ _ hdiffers)
    have hcalm := writes_of_concludes (hlooks.prepareWrite session v) hprepared
    obtain ⟨hgiven', hwrite⟩ := hfs.split hcalm
    exact .updated observed v' hread hgiven hprepared hgiven' (echoes_of_happens hwrite)

theorem leaves_of_reconcile (hlooks : OnlyLooks o) (h : Ends (reconcile s o) es (.ok outcome))
    (hes : Happens store engine before es between) :
    o.validate = .ok () ∧ Left store engine s o before outcome between := by
  obtain ⟨hvalid, hreconciled⟩ := reconcile_ok h
  refine ⟨hvalid, ?_⟩
  cases hreconciled with
  | mk session v observed hlogin hprepare hread hsettled =>
    obtain ⟨hgiven₁, hes⟩ := hes.split (writes_of_login hlogin)
    obtain ⟨hgiven₂, hes⟩ := hes.split (writes_of_concludes (hlooks.prepare session) hprepare)
    obtain ⟨hgiven₃, hes⟩ := hes.split (writes_of_concludes (hlooks.readObserved session) hread)
    exact .mk session v hlogin hgiven₁ hprepare hgiven₂
      (leaves_of_settled hlooks hread hgiven₃ hsettled hes)

-- ---------------------------------------------------------------------------
-- What a pass finds
-- ---------------------------------------------------------------------------

/-- What is found in Vault is what is desired. -/
def Stands (store : StoreContent) (after : VaultContent) (Also : Event → Prop) (o : VaultObject)
    (v : InternalValues) : Prop :=
  ∃ observed, (∀ session, Yields (Given store after) (o.readObserved session) (some observed)) ∧
    ∀ es r, Program.Exec (o.isEquivalent v observed) es r → (∀ e ∈ es, Also e) → r = some true

/-- A part of a pass that writes nothing and comes to a value, and what is left of the pass. -/
theorem exec_bind_silent {Also : Event → Prop} {p : ExceptT ε Program α}
    {f : α → ExceptT ε Program β} {R : α → Prop}
    (hsilent : ∀ es r, Program.Exec p.run es r → writes es = [])
    (hcomes : ∀ es r, Program.Exec p.run es r → (∀ e ∈ es, Given store after e) →
      (∀ e ∈ es, Also e) → ∃ a, r = some (.ok a) ∧ R a)
    (h : Program.Exec (p >>= f).run es r) (hes : Happens store engine after es last)
    (halso : ∀ e ∈ es, Also e) :
    ∃ a es₁ es₂, R a ∧ es = es₁ ++ es₂ ∧ writes es₁ = [] ∧ Program.Exec (f a).run es₂ r ∧
      Happens store engine after es₂ last ∧ ∀ e ∈ es₂, Also e := by
  rcases exec_run_bind.1 h with ⟨a, es₁, es₂, h₁, h₂, rfl⟩ | ⟨e, h₁, rfl⟩ | ⟨h₁, rfl⟩
  · obtain ⟨hgiven, hes₂⟩ := hes.split (hsilent _ _ h₁)
    obtain ⟨halso₁, halso₂⟩ := List.forall_mem_append.1 halso
    obtain ⟨_, ⟨⟩, hR⟩ := hcomes _ _ h₁ hgiven halso₁
    exact ⟨a, es₁, es₂, hR, rfl, hsilent _ _ h₁, h₂, hes₂, halso₂⟩
  · obtain ⟨-, hgiven⟩ := happens_of_writes_eq_nil (hsilent _ _ h₁) hes
    obtain ⟨_, ⟨⟩, -⟩ := hcomes _ _ h₁ hgiven halso
  · obtain ⟨-, hgiven⟩ := happens_of_writes_eq_nil (hsilent _ _ h₁) hes
    obtain ⟨_, ⟨⟩, -⟩ := hcomes _ _ h₁ hgiven halso

theorem exec_lift {q : Program α} (h : Program.Exec (ExceptT.lift q : ExceptT ε Program α).run es r) :
    ∃ r', Program.Exec q es r' ∧ r = r'.map .ok := by
  rcases Program.exec_bind.1 h with ⟨a, es₁, es₂, h₁, h₂, rfl⟩ | ⟨h₁, rfl⟩
  · obtain ⟨rfl, rfl⟩ := Program.exec_done.1 h₂
    exact ⟨some a, by rwa [List.append_nil], rfl⟩
  · exact ⟨none, h₁, rfl⟩

theorem unchanged_of_stands {Also : Event → Prop} (hlooks : OnlyLooks o)
    (hvalid : o.validate = .ok ())
    (hlogin : ∀ es r, Program.Exec (login s o.ns o.access).run es r →
      (∀ e ∈ es, Given store after e) → ∃ session, r = some (.ok session))
    (hprepare : ∀ session, Yields (Given store after) (o.prepare session) v)
    (hstands : Stands store after Also o v) (h : Program.Exec (reconcile s o).run es r)
    (hes : Happens store engine after es last) (halso : ∀ e ∈ es, Also e) :
    r = some (.ok .unchanged) ∧ writes es = [] := by
  obtain ⟨observed, hread, hsame⟩ := hstands
  have hcheck : (Pass.check o.validate) = pure () := by rw [hvalid]; rfl
  rw [reconcile, hcheck, pure_bind] at h
  obtain ⟨session, es₁, es, -, rfl, hcalm₁, h, hes, halso⟩ :=
    exec_bind_silent (R := fun _ => True) (fun _ _ => writes_of_login)
      (fun es r h hgiven _ => (hlogin es r h hgiven).imp fun _ hr => ⟨hr, trivial⟩) h hes halso
  obtain ⟨_, es₂, es, rfl, rfl, hcalm₂, h, hes, halso⟩ :=
    exec_bind_silent (R := (· = v)) (fun _ _ => writes_of_concludes (hlooks.prepare session))
      (fun es r h hgiven _ => ⟨v, hprepare session es r h hgiven, rfl⟩) h hes halso
  obtain ⟨_, es₃, es, rfl, rfl, hcalm₃, h, hes, halso⟩ :=
    exec_bind_silent (R := (· = some observed))
      (fun _ _ => writes_of_concludes (hlooks.readObserved session))
      (fun es r h hgiven _ => ⟨_, hread session es r h hgiven, rfl⟩) h hes halso
  obtain ⟨_, es₄, es, rfl, rfl, hcalm₄, h, -, -⟩ :=
    exec_bind_silent (R := (· = true))
      (fun es r h => by
        obtain ⟨r', hcompare, -⟩ := exec_lift h
        exact hlooks.isEquivalent _ _ es r' hcompare)
      (fun es r h _ halso => by
        obtain ⟨r', hcompare, rfl⟩ := exec_lift h
        obtain rfl := hsame es r' hcompare halso
        exact ⟨true, rfl, rfl⟩) h hes halso
  obtain ⟨rfl, rfl⟩ := Program.exec_done.1 h
  refine ⟨rfl, ?_⟩
  simp only [writes_append, hcalm₁, hcalm₂, hcalm₃, hcalm₄, List.append_nil]

-- ---------------------------------------------------------------------------
-- Two passes
-- ---------------------------------------------------------------------------

/-- Nothing that a pass needs is declared otherwise. -/
structure Restates (o o' : VaultObject) : Prop where
  ns : o'.ns = o.ns
  access : o'.access = o.access
  validate : o'.validate = o.validate
  prepare : o'.prepare = o.prepare

/-- Where a pass that succeeded left what is desired, the next one has nothing to do. -/
theorem unchanged_again {Also : Event → Prop} (hlooks : OnlyLooks o) (hlooks' : OnlyLooks o')
    (hsame : Restates o o') (hfirst : Ends (reconcile s o) es (.ok outcome))
    (hes : Happens store engine before es between)
    (hagain : ∀ session v, Leaves store engine o session v before outcome between →
      Stands store between Also o' v ∧ ∀ session',
        Follows (Given store before) (Given store between) Eq (o.prepare session)
          (o.prepare session'))
    (hsecond : Program.Exec (reconcile s o').run fs r)
    (hfs : Happens store engine between fs after) (halso : ∀ e ∈ fs, Also e) :
    r = some (.ok .unchanged) ∧ writes fs = [] := by
  obtain ⟨hvalid, hleft⟩ := leaves_of_reconcile hlooks hfirst hes
  cases hleft with
  | mk session v hlogin hgiven hprepare hgiven' hleaves =>
    obtain ⟨hstands, hfollows⟩ := hagain session v hleaves
    refine unchanged_of_stands hlooks' (hsame.validate.trans hvalid) ?_ ?_ hstands hsecond hfs halso
    · intro es r h hbetween
      rw [hsame.ns, hsame.access] at h
      obtain ⟨session', hr, -⟩ := login_follows _ _ hlogin hgiven _ _ h hbetween
      exact ⟨session', hr⟩
    · intro session'
      rw [hsame.prepare]
      exact (hfollows session').yields hprepare hgiven'

end VaultOperator.Engine
