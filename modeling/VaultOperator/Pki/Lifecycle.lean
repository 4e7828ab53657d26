import VaultOperator.Engine.Reconcile
import VaultOperator.Pki.Export
import VaultOperator.Pki.Object

/-!
One pass over a certificate authority. Its steps are made once each and cannot be read back, so
what has been reached is recorded as it is reached, and is kept also when a later step fails.
-/

namespace VaultOperator.Pki

open VaultOperator.Path (PkiOperation)

/-- A pass that keeps the progress made before it failed. -/
abbrev CaPass := ExceptT ReconcileError (StateT CaProgress Program)

namespace CaPass

def lift (p : Pass α) : CaPass α :=
  ExceptT.mk fun progress => p.run.bind fun result => .done (result, progress)

def progress : CaPass CaProgress :=
  ExceptT.mk fun progress => .done (.ok progress, progress)

/-- Records the type and key mode that an authority was made with. -/
def observe (type : CaType) (mode : KeyMode) : CaPass Unit :=
  ExceptT.mk fun progress =>
    .done (.ok (), { progress with observedType := some type, observedKeyMode := some mode })

/-- Goes on to another state; only a change is counted. -/
def advance (next : CaState) : CaPass Unit :=
  ExceptT.mk fun progress =>
    if progress.state = next then .done (.ok (), progress)
    else .count (.pkiTransition next.phase.name) (.done (.ok (), { progress with state := next }))

end CaPass

/-- Created goes before updated, and that before unchanged. -/
def mostSignificant : SyncOutcome → SyncOutcome → SyncOutcome
  | .created, _ | _, .created => .created
  | .updated, _ | _, .updated => .updated
  | .unchanged, .unchanged => .unchanged

/-- Keeps what was handed out in the companion secret. Secrets cannot be changed, so one that is
left from before is replaced. -/
def persistArtifacts (p : Pki) (response : Payload) : Pass Unit := do
  let secret := exportSecret p response
  let create := Program.cluster (.createSecret secret)
  match ← ExceptT.lift create with
  | .ok () => pure ()
  | .error (.alreadyExists ..) =>
    Pass.attempt .store (.cluster (.deleteSecret p.metadata.nsAny secret.name))
    Pass.attempt .store create
  | .error e => throw (.store e)

/-- Makes the key of the authority; the request to sign it comes back. -/
def generate (p : Pki) (session : Vault.Session) : CaPass (Option String) := do
  let s := p.spec
  let exported := s.keyMode = .exported
  let answer ← CaPass.lift
    (Pass.write session ((PkiOperation.generate s.type s.keyMode).path (mount p))
      s.generatePayload)
  let response := answer.getD ∅
  if exported ∨ s.type = .intermediate then
    CaPass.lift (persistArtifacts p response)
  CaPass.observe s.type s.keyMode
  CaPass.advance (.ofGeneration exported)
  return response.text? "csr"

/-- The request to sign: of this pass, else the one that is kept. Where that is lost too the
authority has to be made again. -/
def signingRequest (p : Pki) : Option String → CaPass String
  | some csr => return csr
  | none => do
    let ns := p.metadata.nsAny
    let name := exportName p
    let data ← CaPass.lift (Pass.getSecret ns name)
    match (data.bind (·.get? "csr")).bind Text.decode? with
    | some csr => return csr
    | none =>
      CaPass.advance .notGenerated
      throw (.credential (.notFound ("CSR in secret " ++ ns ++ "/" ++ name)))

/-- Has another authority sign; it has to be a root that is ready. -/
def signInternally (settings : Engine.Settings) (p : Pki) (signer : Signer) (csr : String) :
    Pass String := do
  let ns := signer.ns.getD p.metadata.nsAny
  let where_ := ns ++ "/" ++ signer.name
  let found ← Pass.attempt .store (.cluster (.getPki ns signer.name))
  let authority ← Pass.orFail found (.awaiting ("signing CA " ++ where_ ++ " does not exist"))
  if authority.spec.type ≠ .root then
    throw (.validation (.invalid "spec.internalSign" (where_ ++ " is not a root CA")))
  if !(caState authority).isSigned then
    throw (.awaiting ("signing CA " ++ where_ ++ " is not ready"))
  let session ← Engine.login settings ns authority.spec.access
  let path := PkiOperation.signIntermediate.path (mount authority)
  let answer ← Pass.write session path (p.spec.signPayload csr)
  let response := answer.getD ∅
  let certificate ← Pass.orFail (response.text? "certificate")
    (.remote (.decode path "sign-intermediate returned no certificate"))
  match response.text? "issuing_ca" with
  | some issuer => return if issuer.isEmpty then certificate else certificate ++ "\n" ++ issuer
  | none => return certificate

/-- The certificate that somebody else signed and put into a secret. -/
def externalCertificate (p : Pki) (secret : SignedSecret) : Pass String := do
  let ns := p.metadata.nsAny
  let key := if secret.key.isEmpty then "tls.crt" else secret.key
  let data ← Pass.getSecret ns secret.name
  let certificate := ((data.bind (·.get? key)).bind Text.decode?).filter fun text =>
    !Text.isBlankText text
  Pass.orFail certificate
    (.awaiting
      ("signed certificate in secret " ++ ns ++ "/" ++ secret.name ++ " key '" ++ key ++ "'"))

/-- The certificate of an intermediate authority, in the way it is declared to be signed. -/
def certificate (settings : Engine.Settings) (p : Pki) (freshCsr : Option String) :
    CaPass String := do
  match p.spec.internalSign, p.spec.externalSign with
  | some signer, _ =>
    let csr ← signingRequest p freshCsr
    CaPass.lift (signInternally settings p signer csr)
  | none, some secret => CaPass.lift (externalCertificate p secret)
  | none, none =>
    throw (.validation (.invalid "spec.type"
      "an intermediate CA needs exactly one of internalSign or externalSignSecret"))

/-- Signs the authority. A root signs itself when it is made. -/
def sign (settings : Engine.Settings) (p : Pki) (session : Vault.Session)
    (freshCsr : Option String) (outcome : SyncOutcome) : CaPass SyncOutcome := do
  match p.spec.type with
  | .root =>
    CaPass.advance (← CaPass.progress).state.sign
    return outcome
  | .intermediate =>
    CaPass.advance (← CaPass.progress).state.awaitSignature
    let certificate ← certificate settings p freshCsr
    let _ ← CaPass.lift (Pass.write session (PkiOperation.setSigned.path (mount p))
      ((∅ : Payload).insert "certificate" (.str certificate)))
    CaPass.advance (← CaPass.progress).state.sign
    return mostSignificant .updated outcome

/-- Brings the addresses in certificates to those that are declared. -/
def syncUrls (p : Pki) (session : Vault.Session) (outcome : SyncOutcome) : CaPass SyncOutcome := do
  match p.spec.urlsPayload? with
  | some urls =>
    let synced ← CaPass.lift
      (Engine.syncPath session (PkiOperation.configUrls.path (mount p)) urls .desiredKeys)
    return mostSignificant synced outcome
  | none => return outcome

def run (settings : Engine.Settings) (p : Pki) : CaPass SyncOutcome := do
  CaPass.lift (Pass.check (validate p))
  let session ← CaPass.lift (Engine.login settings p.metadata.nsAny p.spec.access)
  let (freshCsr, outcome) ←
    if (← CaPass.progress).state.isGenerated then pure (none, SyncOutcome.unchanged)
    else do
      let csr ← generate p session
      pure (csr, SyncOutcome.created)
  let outcome ←
    if (← CaPass.progress).state.isSigned then pure outcome
    else sign settings p session freshCsr outcome
  syncUrls p session outcome

/-- A pass from the progress that is recorded: its result, and the progress made. -/
def reconcile (settings : Engine.Settings) (p : Pki) :
    Program (Except ReconcileError SyncOutcome × CaProgress) :=
  (run settings p).run (progress p)

end VaultOperator.Pki
