import VaultOperator.Json.MergePatch
import VaultOperator.Kubernetes.Client
import VaultOperator.Text.Split

/-!
The API of a cluster in memory: its resources by their paths, with merge patches applied as they
come.
-/

namespace VaultOperator.Memory

open Kubernetes (Request Reply)

structure Cluster where
  objects : Dict Json := ∅
  /-- The requests that fail, by their methods and paths. -/
  failures : Dict Kubernetes.Error := ∅

namespace Cluster

def failureKey (method path : String) : String :=
  method ++ " " ++ path

def notFound : Kubernetes.Error :=
  .api 404 "not found" "NotFound"

def alreadyExists : Kubernetes.Error :=
  .api 409 "already exists" "AlreadyExists"

def withoutEnding? (path ending : String) : Option String :=
  if ending.toList.isSuffixOf path.toList then
    some (String.ofList (path.toList.take (path.length - ending.length)))
  else none

/-- The object whose status is at a path, or that is itself there. -/
def objectPath (path : String) : String :=
  (withoutEnding? path "/status").getD path

/-- The token for a service account: its namespace and name stand in the path. -/
def defaultToken (path : String) : String :=
  match (Text.split '/' path.toList).map String.ofList with
  | _ :: _ :: _ :: _ :: ns :: _ :: serviceAccount :: _ => "jwt-" ++ ns ++ "-" ++ serviceAccount
  | _ => "jwt--"

/-- A reply to a request for a token. What stands at the path says which; a dash means none. -/
def issue (c : Cluster) (path : String) : Json :=
  let token := match c.objects.get? path with
    | some object => ((object.get? "token").bind Json.str?).getD ""
    | none => defaultToken path
  if token = "-" then Json.record [("kind", .str "TokenRequest")]
  else Json.record
    [("kind", .str "TokenRequest"), ("status", Json.record [("token", .str token)])]

def nameOf (resource : Json) : String :=
  (((resource.get? "metadata").bind (·.get? "name")).bind Json.str?).getD ""

def create (c : Cluster) (path : String) (resource : Json) : Reply × Cluster :=
  let path := Kubernetes.itemPath path (nameOf resource)
  if c.objects.contains path then (.error alreadyExists, c)
  else (.ok resource, { c with objects := c.objects.insert path resource })

def patch (c : Cluster) (path : String) (patch : Json) : Reply × Cluster :=
  match c.objects.get? path with
  | some object =>
    let object := object.mergePatch patch
    (.ok object, { c with objects := c.objects.insert path object })
  | none => (.error notFound, c)

def handle (r : Request) (c : Cluster) : Reply × Cluster :=
  match c.failures.get? (failureKey r.method.name r.path) with
  | some e => (.error e, c)
  | none =>
    match r.method with
    | .get =>
      match c.objects.get? r.path with
      | some object => (.ok object, c)
      | none => (.error notFound, c)
    | .delete =>
      match c.objects.get? r.path with
      | some object => (.ok object, { c with objects := c.objects.erase r.path })
      | none => (.error notFound, c)
    | .patch => c.patch (objectPath r.path) (r.body.getD .null)
    | .post =>
      if (withoutEnding? r.path "/token").isSome then (.ok (c.issue r.path), c)
      else c.create r.path (r.body.getD .null)

def answer (call : Kubernetes.Call) (c : Cluster) : call.Answer × Cluster :=
  (Kubernetes.exchange call).perform handle c

end Cluster

end VaultOperator.Memory
