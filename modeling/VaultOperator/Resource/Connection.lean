import VaultOperator.Json.Reader

/-!
The parts of a declaration that say how Vault is reached and logged in to.
-/

namespace VaultOperator

structure Tls where
  caSecret : Option String := none
  skipVerify : Bool := false
  deriving DecidableEq, Repr

/-- What an object changes of the operator's own connection to Vault. -/
structure Connection where
  address : Option String := none
  ns : Option String := none
  tls : Option Tls := none
  deriving DecidableEq, Repr

/-- A login with the token of a service account. -/
structure Authentication where
  serviceAccount : String := "default"
  /-- Where the auth method is mounted. -/
  path : String := "kubernetes"
  role : String
  ns : Option String := none
  audiences : List String := []
  deriving DecidableEq, Repr

namespace Tls

def reader : Json.Reader Tls := do
  return {
    caSecret := ← Json.optional "caSecret" Json.str?
    skipVerify := ← Json.withDefault "skipVerify" false Json.bool? }

def toJson (t : Tls) : Json :=
  Json.record [("caSecret", Json.ofOption .str t.caSecret), ("skipVerify", .bool t.skipVerify)]

end Tls

namespace Connection

def reader : Json.Reader Connection := do
  return {
    address := ← Json.optional "address" Json.str?
    ns := ← Json.optional "namespace" Json.str?
    tls := ← Json.optional "tls" (Json.structure? Tls.reader) }

def ofJson? : Json → Option Connection :=
  Json.structure? reader

def toJson (c : Connection) : Json :=
  Json.record
    [("address", Json.ofOption .str c.address), ("namespace", Json.ofOption .str c.ns),
      ("tls", Json.ofOption Tls.toJson c.tls)]

end Connection

namespace Authentication

/-- A service account stands in a structure of its own. -/
def serviceAccountReader : Json.Reader String :=
  Json.withDefault "name" "default" Json.str?

def reader : Json.Reader Authentication := do
  return {
    serviceAccount :=
      ← Json.withDefault "serviceAccount" "default" (Json.structure? serviceAccountReader)
    path := ← Json.withDefault "path" "kubernetes" Json.str?
    role := ← Json.required "role" Json.str?
    ns := ← Json.optional "namespace" Json.str?
    audiences := ← Json.withDefault "audiences" [] (Json.listOf Json.str?) }

def ofJson? : Json → Option Authentication :=
  Json.structure? reader

def toJson (a : Authentication) : Json :=
  Json.record
    [("serviceAccount", Json.record [("name", .str a.serviceAccount)]), ("path", .str a.path),
      ("role", .str a.role), ("namespace", Json.ofOption .str a.ns),
      ("audiences", Json.ofStrings a.audiences)]

end Authentication

/-- How one object reaches Vault. -/
structure Access where
  connection : Option Connection
  authentication : Authentication
  deriving DecidableEq, Repr

namespace Access

def reader : Json.Reader Access := do
  return {
    connection := ← Json.optional "connection" Connection.ofJson?
    authentication := ← Json.required "authentication" Authentication.ofJson? }

def fields (a : Access) : List (String × Json) :=
  [("connection", Json.ofOption Connection.toJson a.connection),
    ("authentication", a.authentication.toJson)]

end Access

end VaultOperator
