import VaultOperator.Path.Endpoint
import VaultOperator.Vault.Call

/-!
A Vault in memory: it keeps what is written and shows it as it is. New mounts are listed in their
table.
-/

namespace VaultOperator.Memory

open VaultOperator.Path (MountTable)

structure VaultServer where
  payloads : Dict Payload := ∅
  /-- What writes are answered with, by path. -/
  responses : Dict Payload := ∅
  /-- The calls that fail, by their names and paths. -/
  failures : Dict Vault.Error := ∅

namespace VaultServer

/-- What a failing call is found under: its name, and its path or the mount that is logged in at. -/
def failureKey (operation path : String) : String :=
  operation ++ " " ++ path

def afterPrefix? (lead text : String) : Option String :=
  if lead.toList.isPrefixOf text.toList then some (String.ofList (text.toList.drop lead.length))
  else none

def endsWith (text ending : String) : Bool :=
  ending.toList.isSuffixOf text.toList

def tuneEnding : String := "/tune"

def mountOf? (table : MountTable) (path : String) : Option String :=
  (afterPrefix? (table.path ++ "/") path).filter fun mount => !endsWith mount tuneEnding

/-- Lists a mount under `mount/`. -/
def list (table : MountTable) (mount : String) (body : Payload) (payloads : Dict Payload) :
    Dict Payload :=
  let listing := (payloads.get? table.path).getD ∅
  payloads.insert table.path (listing.insert (mount ++ "/") (Json.ofDict body))

/-- Lists the mount that a write to `path` makes in a table, if it makes one. -/
def listMount (path : String) (body : Payload) (payloads : Dict Payload) (table : MountTable) :
    Dict Payload :=
  match mountOf? table path with
  | some mount => list table mount body payloads
  | none => payloads

def store (path : String) (body : Payload) (payloads : Dict Payload) : Dict Payload :=
  [MountTable.secret, MountTable.auth].foldl (listMount path body) (payloads.insert path body)

/-- Only mounts can be tuned. -/
def untunable (path : String) : Vault.Error :=
  .ofStatus 400 path "\x7b\"errors\":[\"cannot fetch sysview for path\"]\x7d"

def read (v : VaultServer) (path : String) : Except Vault.Error (Option Payload) :=
  match v.payloads.get? path with
  | some payload => .ok (some payload)
  | none => if endsWith path tuneEnding then .error (untunable path) else .ok none

def failure? (v : VaultServer) (operation path : String) : Option Vault.Error :=
  v.failures.get? (failureKey operation path)

/-- The token of a login tells the role. -/
def answer : (c : Vault.Call) → VaultServer → c.Answer × VaultServer
  | .login _ request, v =>
    match v.failure? "login" request.mount with
    | some e => (.error e, v)
    | none => (.ok ("token-" ++ request.role), v)
  | .read _ path, v =>
    match v.failure? "read" path with
    | some e => (.error e, v)
    | none => (v.read path, v)
  | .write _ path body, v =>
    match v.failure? "write" path with
    | some e => (.error e, v)
    | none => (.ok (v.responses.get? path), { v with payloads := store path body v.payloads })
  | .delete _ path, v =>
    match v.failure? "delete" path with
    | some e => (.error e, v)
    | none =>
      if v.payloads.contains path then (.ok (), { v with payloads := v.payloads.erase path })
      else (.error (.notFound path), v)

end VaultServer

end VaultOperator.Memory
