import VaultOperator.Path.Basic
import VaultOperator.Pki.Basic

/-!
The endpoints of the Vault API that objects are kept at.
-/

namespace VaultOperator.Path

inductive PkiOperation where
  | generate (type : CaType) (mode : KeyMode)
  /-- Issued at the mount of the signing authority. -/
  | signIntermediate
  | setSigned
  | configUrls
  | deleteRoot
  deriving DecidableEq, Repr

/-- The segments of an operation below its mount. -/
def PkiOperation.suffix : PkiOperation → List String
  | .generate type mode => [type.name, "generate", mode.name]
  | .signIntermediate => ["root", "sign-intermediate"]
  | .setSigned => ["intermediate", "set-signed"]
  | .configUrls => ["config", "urls"]
  | .deleteRoot => ["root"]

def PkiOperation.path (op : PkiOperation) (mount : String) : String :=
  join (mount :: op.suffix)

/-- Secrets engines and auth methods are mounted in tables of their own. -/
inductive MountTable where
  | secret
  | auth
  deriving DecidableEq, Repr

def MountTable.path : MountTable → String
  | .secret => "sys/mounts"
  | .auth => "sys/auth"

def MountTable.mountPath (table : MountTable) (path name : String) : String :=
  join [table.path, path, name]

/-- What a mount is listed as in its table. -/
def tableKey (path name : String) : String :=
  join [path, name] ++ "/"

/-- The settings of a mount that can be changed after it was made. -/
def MountTable.tunePath (table : MountTable) (path name : String) : String :=
  join [table.path, path, name, "tune"]

def authLogin (mount : String) : String :=
  join ["auth", mount, "login"]

def passwordPolicyGenerate (policy : String) : String :=
  join ["sys/policies/password", policy, "generate"]

/-- Where a key/value secret is kept; in the second version of the engine below `data`. -/
def kvPath (mount name : String) (v2 : Bool) : String :=
  if v2 then join [mount, "data", name] else join [mount, name]

/-- Deleting this removes every version of a secret. -/
def kvMetadataPath (mount name : String) : String :=
  join [mount, "metadata", name]

end VaultOperator.Path
