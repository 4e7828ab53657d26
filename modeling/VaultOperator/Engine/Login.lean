import VaultOperator.Config
import VaultOperator.Pass.Program
import VaultOperator.Resource.Connection
import VaultOperator.Text.Utf8

/-!
Which Vault an object is kept in, and logging in to it.
-/

namespace VaultOperator.Engine

structure Settings where
  defaults : VaultDefaults := {}
  /-- The lifetime asked for service account tokens. -/
  tokenTtlSeconds : Int := 600
  deriving DecidableEq, Repr

def caKey : String := "ca.crt"

/-- The certificates in a secret. Bytes that are no text are replaced. -/
def readCaSecret (ns secret : String) : Pass String := do
  let location := "secret " ++ ns ++ "/" ++ secret
  let data ← Pass.orFail (← Pass.getSecret ns secret) (.credential (.notFound location))
  let bytes ← Pass.orFail (data.get? caKey) (.credential (.keyNotFound caKey location))
  return Text.decodeLossy bytes

def readCaFile (path : String) : Pass String :=
  Pass.attempt
    (fun cause => .remote (.invalidTarget ("cannot read CA bundle " ++ path ++ ": " ++ cause)))
    (.ask (.readCaFile path))

/-- The certificates to trust: those of the connection's secret, else those of the operator's
file. -/
def caPem (s : Settings) (ns : String) (connection : Option Connection) :
    Pass (Option String) :=
  match (connection.bind (·.tls)).bind (·.caSecret), s.defaults.caCertFile with
  | some secret, _ => some <$> readCaSecret ns secret
  | none, some path => some <$> readCaFile path
  | none, none => pure none

/-- The Vault of a connection, with the operator's own settings where it says nothing. -/
def target (s : Settings) (ns : String) (connection : Option Connection) : Pass Vault.Target := do
  let caPem ← caPem s ns connection
  return {
    address := (connection.bind (·.address)).getD s.defaults.address
    ns := (connection.bind (·.ns)).or s.defaults.ns
    caPem
    skipVerify := ((connection.bind (·.tls)).any (·.skipVerify)) || s.defaults.skipVerify }

/-- Exchanges a token of the service account for one of Vault. -/
def login (s : Settings) (ns : String) (access : Access) : Pass Vault.Session := do
  let auth := access.authentication
  let target ← target s ns access.connection
  let jwt ← Pass.attempt .store
    (.cluster (.serviceAccountToken ns auth.serviceAccount auth.audiences s.tokenTtlSeconds))
  let request : Vault.LoginRequest :=
    { mount := auth.path, role := auth.role, jwt, ns := auth.ns }
  let token ← Pass.attempt .remote (.vault (.login target request))
  return ⟨target, token⟩

end VaultOperator.Engine
