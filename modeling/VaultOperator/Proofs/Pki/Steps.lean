import VaultOperator.Pki.Lifecycle
import VaultOperator.Proofs.Engine.Login

/-!
# Steps of a pass over a certificate authority

What each step can come to: the writes it makes, the progress it leaves, and which of its calls
tell how it ended.
-/

namespace VaultOperator

namespace Event

/-- A count, which nobody answers. -/
def isCount : Event → Bool
  | .count _ => true
  | .call .. => false

/-- Secrets and authorities of the cluster that are looked up. -/
def isLookup : Event → Bool
  | .call (.cluster (.getSecret ..)) _ | .call (.cluster (.getPki ..)) _ => true
  | _ => false

def isGetPki : Event → Bool
  | .call (.cluster (.getPki ..)) _ => true
  | _ => false

theorem isLookup_of_isGetPki {e : Event} (h : e.isGetPki) : e.isLookup := by
  unfold isGetPki at h
  split at h
  · rfl
  · cases h

theorem not_isLookup_of_isCount {e : Event} (h : e.isCount) : ¬ e.isLookup := by
  cases e with
  | call c answer => cases h
  | count => simp [isLookup]

theorem not_isGetPki_of_isCount {e : Event} (h : e.isCount) : ¬ e.isGetPki := fun hpki =>
  not_isLookup_of_isCount h (isLookup_of_isGetPki hpki)

end Event

theorem writes_eq_nil_of_counts {es : List Event} (h : ∀ e ∈ es, e.isCount) : writes es = [] := by
  refine List.filterMap_eq_nil_iff.2 fun e he => ?_
  cases e with
  | call c answer => cases h _ he
  | count => rfl

namespace Pki

open VaultOperator.Path (PkiOperation)

namespace CaPass

@[simp] theorem endsWith_lift {q : Pass α} :
    EndsWith (lift q) s es r t ↔ Ends q es r ∧ t = s := by
  show Program.Exec (q.run.bind fun a => .done (a, s)) es (some (r, t)) ↔ _
  simp only [Program.exec_bind, Program.exec_done, Option.some.injEq, Prod.mk.injEq, reduceCtorEq,
    and_false, or_false]
  constructor
  · rintro ⟨a, es₁, _, h, ⟨rfl, rfl, rfl⟩, rfl⟩; exact ⟨by rwa [List.append_nil], rfl⟩
  · rintro ⟨h, rfl⟩; exact ⟨r, es, [], h, ⟨rfl, rfl, rfl⟩, by simp⟩

theorem advance_ends (h : EndsWith (advance next) s es r t) :
    r = .ok () ∧ t = { s with state := next } ∧ ∀ e ∈ es, e.isCount := by
  change Program.Exec (if s.state = next then _ else _) es (some (r, t)) at h
  split at h
  · next hs =>
    obtain ⟨rfl, h⟩ := Program.exec_done.1 h
    cases h
    exact ⟨rfl, by rw [← hs], by simp⟩
  · simp only [Program.exec_count, Program.exec_done, Option.some.injEq, Prod.mk.injEq] at h
    obtain ⟨_, rfl, rfl, rfl, rfl⟩ := h
    exact ⟨rfl, rfl, by simp [Event.isCount]⟩

@[simp] theorem endsWith_progress_bind {f : CaProgress → CaPass α} :
    EndsWith (progress >>= f) s es r t ↔ EndsWith (f s) s es r t :=
  .rfl

@[simp] theorem endsWith_observe_bind {f : Unit → CaPass α} :
    EndsWith (observe type mode >>= f) s es r t ↔
      EndsWith (f ()) { s with observedType := some type, observedKeyMode := some mode } es r t :=
  .rfl

theorem advance_bind_ends {f : Unit → CaPass α} (h : EndsWith (advance next >>= f) s es r t) :
    ∃ counts rest, es = counts ++ rest ∧ (∀ e ∈ counts, e.isCount) ∧
      EndsWith (f ()) { s with state := next } rest r t := by
  rcases endsWith_bind.1 h with ⟨_, _, counts, rest, hadvance, hrest, rfl⟩ | ⟨_, hadvance, -⟩ <;>
    obtain ⟨hr, rfl, hcounts⟩ := advance_ends hadvance <;> cases hr
  exact ⟨counts, rest, rfl, hcounts, hrest⟩

end CaPass

variable {settings : Engine.Settings} {p : Pki} {session : Vault.Session}

-- ---------------------------------------------------------------------------
-- Making the key
-- ---------------------------------------------------------------------------

/-- The companion secret of an answer was created. -/
def IsStored (p : Pki) (response : Payload) (es : List Event) : Prop :=
  .call (.cluster (.createSecret (exportSecret p response))) (.ok ()) ∈ es

/-- What is done about an answer to the creation of a secret. -/
theorem ends_liftCreate_bind {secret : Secret} {f : Except StoreError Unit → Pass α} :
    Ends (ExceptT.lift (Program.cluster (.createSecret secret)) >>= f) es r ↔
      ∃ answer rest, es = .call (.cluster (.createSecret secret)) answer :: rest ∧
        Ends (f answer) rest r := by
  rw [ends_bind]
  constructor
  · rintro (⟨answer, _, rest, hcreate, hrest, rfl⟩ | ⟨_, hcreate, -⟩) <;>
      obtain ⟨_, hcall, ⟨⟩⟩ := ends_lift.1 hcreate
    obtain ⟨_, rfl, ⟨⟩⟩ := Program.exec_cluster.1 hcall
    exact ⟨answer, rest, rfl, hrest⟩
  · rintro ⟨answer, rest, rfl, hrest⟩
    have hcall := Program.exec_cluster.2 ⟨answer, rfl, rfl⟩
    exact .inl ⟨answer, _, rest, ends_lift.2 ⟨answer, hcall, rfl⟩, hrest, rfl⟩

theorem ends_create {secret : Secret} :
    Ends (Pass.attempt .store (.cluster (.createSecret secret))) es r ↔
      ∃ answer : Except StoreError Unit,
        es = [.call (.cluster (.createSecret secret)) answer] ∧ r = answer.mapError .store :=
  Pass.ends_attempt_ask fun _ _ => Program.exec_cluster

theorem ends_deleteSecret :
    Ends (Pass.attempt .store (.cluster (.deleteSecret ns name))) es r ↔
      ∃ answer : Except StoreError Unit,
        es = [.call (.cluster (.deleteSecret ns name)) answer] ∧ r = answer.mapError .store :=
  Pass.ends_attempt_ask fun _ _ => Program.exec_cluster

def createEvent (p : Pki) (response : Payload) (answer : Except StoreError Unit) : Event :=
  .call (.cluster (.createSecret (exportSecret p response))) answer

def deleteEvent (p : Pki) (answer : Except StoreError Unit) : Event :=
  .call (.cluster (.deleteSecret p.metadata.nsAny (exportName p))) answer

/-- How the companion secret of an answer is created: at once, or after the one that is in the way
was deleted. -/
inductive PersistTrace (p : Pki) (response : Payload) :
    List Event → Except ReconcileError Unit → Prop
  | created : PersistTrace p response [createEvent p response (.ok ())] (.ok ())
  | refused (cause : StoreError) :
    PersistTrace p response [createEvent p response (.error cause)] (.error (.store cause))
  | stuck (kind ns name : String) (cause : StoreError) :
    PersistTrace p response
      [createEvent p response (.error (.alreadyExists kind ns name)), deleteEvent p (.error cause)]
      (.error (.store cause))
  | replaced (kind ns name : String) (answer : Except StoreError Unit) :
    PersistTrace p response
      [createEvent p response (.error (.alreadyExists kind ns name)), deleteEvent p (.ok ()),
        createEvent p response answer] (answer.mapError .store)

theorem persistArtifacts_trace (h : Ends (persistArtifacts p response) es r) :
    PersistTrace p response es r := by
  obtain ⟨answer, rest, rfl, hrest⟩ := ends_liftCreate_bind.1 h
  split at hrest
  · obtain ⟨rfl, rfl⟩ := ends_pure.1 hrest
    exact .created
  · simp only [ends_bind, ends_deleteSecret, ends_create] at hrest
    rcases hrest with ⟨_, _, _, ⟨deleted, rfl, hdeleted⟩, ⟨created, rfl, rfl⟩, rfl⟩ |
      ⟨_, ⟨deleted, rfl, hdeleted⟩, rfl⟩
    · obtain rfl := ok_eq_mapError.1 hdeleted
      exact .replaced _ _ _ created
    · obtain ⟨cause, rfl, rfl⟩ := error_eq_mapError.1 hdeleted
      exact .stuck _ _ _ cause
  · obtain ⟨rfl, rfl⟩ := ends_throw.1 hrest
    exact .refused _

theorem PersistTrace.not_isLookup (h : PersistTrace p response es r) : ∀ e ∈ es, ¬ e.isLookup := by
  cases h <;> simp [createEvent, deleteEvent, Event.isLookup]

theorem PersistTrace.writes_eq_nil (h : PersistTrace p response es r) : writes es = [] := by
  cases h <;> rfl

theorem PersistTrace.isStored_iff (h : PersistTrace p response es r) :
    r = .ok () ↔ IsStored p response es := by
  cases h with
  | replaced _ _ _ answer =>
    cases answer <;> simp [IsStored, createEvent, deleteEvent]
  | _ => simp [IsStored, createEvent, deleteEvent]

/-- What Vault hands out only once has to be kept. -/
def NeedsSecret (p : Pki) : Prop :=
  p.spec.keyMode = .exported ∨ p.spec.type = .intermediate

def generatePath (p : Pki) : String :=
  (PkiOperation.generate p.spec.type p.spec.keyMode).path (mount p)

/-- The key was made, and what has to be kept of it was stored. -/
def Made (p : Pki) (es : List Event) : Prop :=
  ∃ w ∈ writes es, w.path = generatePath p ∧ ∃ response, w.answer = .ok response ∧
    (NeedsSecret p → IsStored p (response.getD ∅) es)

/-- What is recorded once a key was made that the given state follows from. -/
def reached (p : Pki) (state : CaState) : CaProgress :=
  ⟨state, some p.spec.type, some p.spec.keyMode⟩

def madeState (p : Pki) : CaState :=
  .ofGeneration (p.spec.keyMode = .exported)

theorem record_ends {csr : Option String}
    (h : EndsWith (do CaPass.observe p.spec.type p.spec.keyMode
                      CaPass.advance (madeState p)
                      return csr) s es r t) :
    r = .ok csr ∧ t = reached p (madeState p) ∧ ∀ e ∈ es, e.isCount := by
  rw [CaPass.endsWith_observe_bind] at h
  obtain ⟨counts, _, rfl, hcounts, hpure⟩ := CaPass.advance_bind_ends h
  obtain ⟨rfl, rfl, rfl⟩ := endsWith_pure.1 hpure
  exact ⟨rfl, rfl, by simpa using hcounts⟩

/-- How the making of a key ends, and what tells. -/
inductive GenerateEnd (p : Pki) (session : Vault.Session) (s : CaProgress) (es : List Event) :
    Except ReconcileError (Option String) → CaProgress → Prop
  | made (response : Option Payload) (hmade : Made p es)
    (hwrites : writes es = [⟨session, generatePath p, p.spec.generatePayload, .ok response⟩]) :
    GenerateEnd p session s es (.ok ((response.getD ∅).text? "csr")) (reached p (madeState p))
  | failed (e : ReconcileError) (answer : Except Vault.Error (Option Payload)) (hmade : ¬ Made p es)
    (hwrites : writes es = [⟨session, generatePath p, p.spec.generatePayload, answer⟩]) :
    GenerateEnd p session s es (.error e) s

/-- The write that makes a key, and what Vault answers to it. -/
def generateEvent (p : Pki) (session : Vault.Session)
    (answer : Except Vault.Error (Option Payload)) : Event :=
  .call (.vault (.write session (generatePath p) p.spec.generatePayload)) answer

theorem writes_generateEvent (h : writes es = []) :
    writes (generateEvent p session answer :: es) =
      [⟨session, generatePath p, p.spec.generatePayload, answer⟩] := by
  rw [generateEvent, writes_cons_write, h]

theorem not_isLookup_generateEvent (h : ∀ e ∈ es, ¬ e.isLookup) :
    ∀ e ∈ generateEvent p session answer :: es, ¬ e.isLookup :=
  List.forall_mem_cons.2 ⟨nofun, h⟩

theorem made_of_generateEvent (hwrites : writes es = [])
    (hstored : NeedsSecret p → IsStored p (response.getD ∅) es) :
    Made p (generateEvent p session (.ok response) :: es) := by
  rw [Made, writes_generateEvent hwrites]
  refine ⟨_, List.mem_singleton_self _, rfl, response, rfl, fun hneeds => ?_⟩
  exact List.mem_cons_of_mem _ (hstored hneeds)

/-- A key was made, but what has to be kept of it was not stored. -/
theorem not_made_of_generateEvent (hneeds : NeedsSecret p) (hwrites : writes es = [])
    (hstored : ¬ IsStored p (response.getD ∅) es) :
    ¬ Made p (generateEvent p session (.ok response) :: es) := by
  rintro ⟨w, hw, -, response', hw', hkept⟩
  rw [writes_generateEvent hwrites] at hw
  obtain rfl := List.mem_singleton.1 hw
  cases hw'
  rcases List.mem_cons.1 (hkept hneeds) with hwrong | hkept
  · cases hwrong
  · exact hstored hkept

/-- How a key is made: Vault is asked for it, what has to be kept of the answer is stored, and only
then is it recorded that there is a key. -/
inductive GenerateTrace (p : Pki) (session : Vault.Session) (s : CaProgress) :
    List Event → Except ReconcileError (Option String) → CaProgress → Prop
  | refused (cause : Vault.Error) :
    GenerateTrace p session s [generateEvent p session (.error cause)] (.error (.remote cause)) s
  | unkept (response : Option Payload) (hneeds : NeedsSecret p)
    (hkeep : PersistTrace p (response.getD ∅) es (.error e)) :
    GenerateTrace p session s (generateEvent p session (.ok response) :: es) (.error e) s
  | made (response : Option Payload)
    (hkeep : NeedsSecret p → PersistTrace p (response.getD ∅) es (.ok ()))
    (hnone : ¬ NeedsSecret p → es = []) (hcounts : ∀ e ∈ counts, e.isCount) :
    GenerateTrace p session s (generateEvent p session (.ok response) :: (es ++ counts))
      (.ok ((response.getD ∅).text? "csr")) (reached p (madeState p))

theorem generate_trace (h : EndsWith (generate p session) s es r t) :
    GenerateTrace p session s es r t := by
  rcases endsWith_bind.1 h with ⟨response, _, _, es₂, hlift, hrest, rfl⟩ | ⟨e, hlift, rfl⟩ <;>
    obtain ⟨hwrite, rfl⟩ := CaPass.endsWith_lift.1 hlift <;>
    obtain ⟨answer, rfl, hanswer⟩ := Pass.ends_write.1 hwrite
  · obtain rfl := ok_eq_mapError.1 hanswer
    rw [List.singleton_append]
    split at hrest
    · next hneeds =>
      rcases endsWith_bind.1 hrest with ⟨_, _, es₃, es₄, hlift, hrecord, rfl⟩ | ⟨e, hlift, rfl⟩ <;>
        obtain ⟨hstore, rfl⟩ := CaPass.endsWith_lift.1 hlift <;>
        have hkeep := persistArtifacts_trace hstore
      · obtain ⟨rfl, rfl, hcounts⟩ := record_ends hrecord
        exact .made response (fun _ => hkeep) (fun hnone => absurd hneeds hnone) hcounts
      · exact .unkept response hneeds hkeep
    · next hneeds =>
      obtain ⟨rfl, rfl, hcounts⟩ := record_ends hrest
      exact .made response (fun h => absurd h hneeds) (fun _ => rfl) hcounts
  · obtain ⟨cause, rfl, rfl⟩ := error_eq_mapError.1 hanswer
    exact .refused cause

/-- Keeping an answer, where it has to be kept, and recording that there is a key take no writes and
no look-ups. -/
theorem silent_of_kept (hkeep : NeedsSecret p → PersistTrace p response es (.ok ()))
    (hnone : ¬ NeedsSecret p → es = []) (hcounts : ∀ e ∈ counts, e.isCount) :
    writes (es ++ counts) = [] ∧ ∀ e ∈ es ++ counts, ¬ e.isLookup := by
  have hquiet : ∀ e ∈ counts, ¬ e.isLookup := fun e he =>
    Event.not_isLookup_of_isCount (hcounts e he)
  rw [writes_append, writes_eq_nil_of_counts hcounts, List.append_nil]
  by_cases hneeds : NeedsSecret p
  · have hkeep := hkeep hneeds
    exact ⟨hkeep.writes_eq_nil, List.forall_mem_append.2 ⟨hkeep.not_isLookup, hquiet⟩⟩
  · rw [hnone hneeds]
    exact ⟨rfl, hquiet⟩

theorem GenerateTrace.not_isLookup (h : GenerateTrace p session s es r t) :
    ∀ e ∈ es, ¬ e.isLookup := by
  cases h with
  | refused => exact not_isLookup_generateEvent (by simp)
  | unkept _ _ hkeep => exact not_isLookup_generateEvent hkeep.not_isLookup
  | made response hkeep hnone hcounts =>
    exact not_isLookup_generateEvent (silent_of_kept hkeep hnone hcounts).2

theorem GenerateTrace.generateEnd (h : GenerateTrace p session s es r t) :
    GenerateEnd p session s es r t := by
  cases h with
  | refused cause =>
    refine .failed _ _ ?_ rfl
    rintro ⟨w, hw, -, response, hw', -⟩
    obtain rfl := List.mem_singleton.1 hw
    cases hw'
  | @unkept es e response hneeds hkeep =>
    have hlost : ¬ IsStored p (response.getD ∅) es := fun hkept => by
      cases hkeep.isStored_iff.2 hkept
    exact .failed e _ (not_made_of_generateEvent hneeds hkeep.writes_eq_nil hlost)
      (writes_generateEvent hkeep.writes_eq_nil)
  | made response hkeep hnone hcounts =>
    obtain ⟨hsilent, -⟩ := silent_of_kept hkeep hnone hcounts
    refine .made response (made_of_generateEvent hsilent fun hneeds => ?_)
      (writes_generateEvent hsilent)
    exact List.mem_append_left _ ((hkeep hneeds).isStored_iff.1 rfl)

-- ---------------------------------------------------------------------------
-- Getting the certificate
-- ---------------------------------------------------------------------------

def storedCsr? (data : Option SecretData) : Option String :=
  (data.bind (·.get? "csr")).bind Text.decode?

/-- The companion secret was read, and there was no request to sign in it. -/
def LacksCsr (p : Pki) (es : List Event) : Prop :=
  ∃ data, .call (.cluster (.getSecret p.metadata.nsAny (exportName p))) (.ok data) ∈ es ∧
    storedCsr? data = none

/-- The request to sign was handed over, or it was found in the companion secret. -/
def HasCsr (p : Pki) (fresh : Option String) (es : List Event) (csr : String) : Prop :=
  fresh = some csr ∨ fresh = none ∧
    ∃ data, .call (.cluster (.getSecret p.metadata.nsAny (exportName p))) (.ok data) ∈ es ∧
      storedCsr? data = some csr

inductive RequestEnd (p : Pki) (fresh : Option String) (s : CaProgress) (es : List Event) :
    Except ReconcileError String → CaProgress → Prop
  | found (csr : String) (hcsr : HasCsr p fresh es csr) (hkept : fresh = none → ¬ LacksCsr p es) :
    RequestEnd p fresh s es (.ok csr) s
  | unread (e : ReconcileError) (hkept : ¬ LacksCsr p es) : RequestEnd p fresh s es (.error e) s
  | lost (e : ReconcileError) (hfresh : fresh = none) (hlacks : LacksCsr p es) :
    RequestEnd p fresh s es (.error e) { s with state := .notGenerated }

theorem signingRequest_ends (h : EndsWith (signingRequest p fresh) s es r t) :
    writes es = [] ∧ (∀ e ∈ es, ¬ e.isGetPki) ∧ RequestEnd p fresh s es r t := by
  cases fresh with
  | some csr =>
    obtain ⟨rfl, rfl, rfl⟩ := endsWith_pure.1 h
    exact ⟨rfl, by simp, .found csr (.inl rfl) nofun⟩
  | none =>
    rcases endsWith_bind.1 h with ⟨data, _, _, es₂, hlift, hrest, rfl⟩ | ⟨e, hlift, rfl⟩ <;>
      obtain ⟨hget, rfl⟩ := CaPass.endsWith_lift.1 hlift <;>
      obtain ⟨answer, rfl, hanswer⟩ := Pass.ends_getSecret.1 hget
    · obtain rfl := ok_eq_mapError.1 hanswer
      split at hrest
      · next csr hcsr =>
        obtain ⟨rfl, rfl, rfl⟩ := endsWith_pure.1 hrest
        have hkept : ¬ LacksCsr p
            [.call (.cluster (.getSecret p.metadata.nsAny (exportName p))) (.ok data)] := by
          simpa [LacksCsr, storedCsr?, Option.isSome_iff_ne_none] using Option.isSome_of_eq_some hcsr
        exact ⟨rfl, by simp [Event.isGetPki],
          .found csr (.inr ⟨rfl, data, List.mem_singleton_self _, hcsr⟩) fun _ => hkept⟩
      · next hcsr =>
        obtain ⟨counts, _, rfl, hcounts, hthrow⟩ := CaPass.advance_bind_ends hrest
        obtain ⟨rfl, rfl, rfl⟩ := endsWith_throw.1 hthrow
        have hquiet := fun e he => Event.not_isGetPki_of_isCount (hcounts e he)
        exact ⟨by simp [writes_eq_nil_of_counts hcounts], by simp_all [or_imp, Event.isGetPki],
          .lost _ rfl ⟨data, by simp, hcsr⟩⟩
    · obtain ⟨cause, rfl, rfl⟩ := error_eq_mapError.1 hanswer
      exact ⟨rfl, by simp [Event.isGetPki], .unread _ (by simp [LacksCsr])⟩

theorem ends_getPki :
    Ends (Pass.attempt .store (.cluster (.getPki ns name))) es r ↔
      ∃ answer : Except StoreError (Option Pki),
        es = [.call (.cluster (.getPki ns name)) answer] ∧ r = answer.mapError .store :=
  Pass.ends_attempt_ask fun _ _ => Program.exec_cluster

/-- The authority that is declared to sign was found, and is a root that is ready. -/
def SignsFor (p authority : Pki) (es : List Event) : Prop :=
  ∃ signer, p.spec.internalSign = some signer ∧
    .call (.cluster (.getPki (signer.ns.getD p.metadata.nsAny) signer.name)) (.ok (some authority))
      ∈ es ∧
    authority.spec.type = .root ∧ (caState authority).isSigned

theorem SignsFor.mono (h : SignsFor p authority es) (hes : es ⊆ fs) : SignsFor p authority fs := by
  obtain ⟨signer, hsigner, hfound, hready⟩ := h
  exact ⟨signer, hsigner, hes hfound, hready⟩

/-- A write that has the declared authority sign. -/
def IsSigning (p : Pki) (es : List Event) (w : VaultWrite) : Prop :=
  ∃ authority, SignsFor p authority es ∧
    w.path = PkiOperation.signIntermediate.path (mount authority) ∧
    ∃ csr, w.body = p.spec.signPayload csr

theorem IsSigning.mono (h : IsSigning p es w) (hes : es ⊆ fs) : IsSigning p fs w := by
  obtain ⟨authority, hsigns, hw⟩ := h
  exact ⟨authority, hsigns.mono hes, hw⟩

theorem certificateOf_ends {fields : Payload} {e : ReconcileError}
    (h : Ends (do
      let certificate ← Pass.orFail (fields.text? "certificate") e
      match fields.text? "issuing_ca" with
      | some issuer => return if issuer.isEmpty then certificate else certificate ++ "\n" ++ issuer
      | none => return certificate) es r) : es = [] := by
  simp only [ends_bind, Pass.ends_orFail] at h
  rcases h with ⟨_, _, _, ⟨rfl, -⟩, hrest, rfl⟩ | ⟨_, ⟨rfl, -⟩, -⟩
  · split at hrest <;> exact (ends_pure.1 hrest).1
  · rfl

/-- Nothing is written unless there is an authority to sign, and then it is asked once. -/
inductive SigningEnd (p : Pki) (es : List Event) : Except ReconcileError String → Prop
  | unasked (e : ReconcileError) (hwrites : writes es = []) : SigningEnd p es (.error e)
  | asked (w : VaultWrite) (r : Except ReconcileError String) (hwrites : writes es = [w])
    (hw : IsSigning p es w) : SigningEnd p es r

def getPkiEvent (ns name : String) (answer : Except StoreError (Option Pki)) : Event :=
  .call (.cluster (.getPki ns name)) answer

def signEvent (p authority : Pki) (session : Vault.Session) (csr : String)
    (answer : Except Vault.Error (Option Payload)) : Event :=
  .call (.vault (.write session (PkiOperation.signIntermediate.path (mount authority))
    (p.spec.signPayload csr))) answer

def signWrite (p authority : Pki) (session : Vault.Session) (csr : String)
    (answer : Except Vault.Error (Option Payload)) : VaultWrite :=
  ⟨session, PkiOperation.signIntermediate.path (mount authority), p.spec.signPayload csr, answer⟩

/-- How another authority is had to sign: it is looked up, and where it is a root that is ready it
is logged in for, with nothing in between, and asked once. -/
inductive SigningTrace (settings : Engine.Settings) (p : Pki) (signer : Signer) (csr : String) :
    List Event → Except ReconcileError String → Prop
  | unasked (answer : Except StoreError (Option Pki)) (e : ReconcileError)
    (hsteps : ∀ e ∈ es, e.isLoginStep) :
    SigningTrace settings p signer csr
      (getPkiEvent (signer.ns.getD p.metadata.nsAny) signer.name answer :: es) (.error e)
  | asked (authority : Pki) (session : Vault.Session) (answer : Except Vault.Error (Option Payload))
    (r : Except ReconcileError String) (htype : authority.spec.type = .root)
    (hready : (caState authority).isSigned)
    (hlogin : Engine.LoginTrace settings (signer.ns.getD p.metadata.nsAny) authority.spec.access
      login (.ok session)) :
    SigningTrace settings p signer csr
      (getPkiEvent (signer.ns.getD p.metadata.nsAny) signer.name (.ok (some authority)) ::
        (login ++ [signEvent p authority session csr answer])) r

theorem signInternally_trace (h : Ends (signInternally settings p signer csr) es r) :
    SigningTrace settings p signer csr es r := by
  simp only [signInternally, ends_bind, ends_getPki, Pass.ends_orFail] at h
  rcases h with ⟨found, _, rest, ⟨answer, rfl, hanswer⟩, hrest, rfl⟩ | ⟨_, ⟨answer, rfl, -⟩, rfl⟩
  · obtain rfl := ok_eq_mapError.1 hanswer
    rw [List.singleton_append]
    rcases hrest with ⟨authority, _, es₃, ⟨rfl, hfound⟩, hrest, rfl⟩ | ⟨_, ⟨rfl, hfound⟩, rfl⟩
    · split at hrest
      · obtain ⟨rfl, rfl⟩ := ends_throw_bind.1 hrest
        exact .unasked _ _ (by simp)
      · next htype =>
        split at hrest
        · obtain ⟨rfl, rfl⟩ := ends_throw_bind.1 hrest
          exact .unasked _ _ (by simp)
        · next hready =>
          rcases ends_bind.1 hrest with ⟨session, es₄, _, hlogin, hask, rfl⟩ | ⟨e, hlogin, rfl⟩
          · obtain ⟨answer, rfl⟩ := Pass.write_last (fun _ _ _ => certificateOf_ends) hask
            cases found with
            | none => cases hfound
            | some =>
              cases hfound
              exact .asked _ session answer r (by simpa using htype) (by simpa using hready)
                (Engine.login_trace hlogin)
          · exact .unasked _ e (Engine.login_ends hlogin).1
    · exact .unasked _ _ (by simp)
  · exact .unasked _ _ (by simp)

theorem signInternally_ends (hsigner : p.spec.internalSign = some signer)
    (h : Ends (signInternally settings p signer csr) es r) :
    (∃ e rest, es = e :: rest ∧ e.isGetPki) ∧ SigningEnd p es r := by
  cases signInternally_trace h with
  | @unasked es answer e hsteps =>
    have hsilent : writes es = [] := writes_eq_nil hsteps
    exact ⟨⟨_, _, rfl, rfl⟩, .unasked e hsilent⟩
  | @asked login authority session answer r htype hready hlogin =>
    have hsilent : writes login = [] := writes_eq_nil hlogin.isLoginStep
    have hsigns : SignsFor p authority (getPkiEvent (signer.ns.getD p.metadata.nsAny) signer.name
        (.ok (some authority)) :: (login ++ [signEvent p authority session csr answer])) :=
      ⟨signer, hsigner, List.mem_cons_self, htype, hready⟩
    refine ⟨⟨_, _, rfl, rfl⟩, .asked (signWrite p authority session csr answer) r ?_
      ⟨authority, hsigns, rfl, csr, rfl⟩⟩
    simp [getPkiEvent, signEvent, signWrite, hsilent]

theorem externalCertificate_ends (h : Ends (externalCertificate p secret) es r) :
    writes es = [] ∧ ∀ e ∈ es, ¬ e.isGetPki := by
  simp only [externalCertificate, ends_bind, Pass.ends_getSecret, Pass.ends_orFail] at h
  rcases h with ⟨_, _, _, ⟨answer, rfl, -⟩, ⟨rfl, -⟩, rfl⟩ | ⟨_, ⟨answer, rfl, -⟩, -⟩ <;>
    simp [Event.isGetPki]

end Pki

end VaultOperator
